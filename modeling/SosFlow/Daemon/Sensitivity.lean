import SosFlow.Daemon.FanOut
import SosFlow.Lib.Trace

/-!
# The registry of sensitivities

A client that is to hear of a handle sends a SENSITIVITY, and the daemon puts
an entry into a list unless there is one of that client for that handle. The
thread that delivers payloads takes an entry out of it when its client cannot
be connected to. Both hold the lock of the list meanwhile, so a run is one
after the other.

What the list is for is said by the history: a pair of client and handle is
registered from its first registration on, until a connect to it fails. The
list is that registry in every state (`sensitivity_registry`), although a walk
may end before it has tried everybody.
-/

namespace SosFlow

open Linked Trace

/-! ## The registry -/

/-- What happens to a pair of client and handle. -/
inductive SenseLog where
  | registered (clientGuid : SosGuid) (handle host : CString) (port : CInt)
  | failed (clientGuid : SosGuid) (handle : CString)
deriving DecidableEq

namespace SenseLog

variable {log new : List SenseLog} {c c' : SosGuid} {h h' : CString}

/-- **The pair is registered**: no connect to it has failed since a registration. -/
def Live (log : List SenseLog) (c : SosGuid) (h : CString) : Prop :=
  ∃ before after host port, log = before ++ registered c h host port :: after ∧ failed c h ∉ after

/-- **The registration that created an entry**: the pair was not registered
then, and no connect to it has failed since. -/
def Created (log : List SenseLog) (c : SosGuid) (h host : CString) (port : CInt) : Prop :=
  ∃ before after, log = before ++ registered c h host port :: after ∧ ¬ Live before c h ∧
    failed c h ∉ after

/-- One event, for a pair. -/
def update (c : SosGuid) (h : CString) (reached : Option (CString × CInt)) :
    SenseLog → Option (CString × CInt)
  | registered c' h' host port => if c' = c ∧ h' = h then reached.or (some (host, port)) else reached
  | failed c' h' => if c' = c ∧ h' = h then none else reached

/-- **Where a registered pair is reached**, by its history. -/
def reachedAt (log : List SenseLog) (c : SosGuid) (h : CString) : Option (CString × CInt) :=
  log.foldl (update c h) none

@[simp] theorem reachedAt_concat (event : SenseLog) :
    reachedAt (log ++ [event]) c h = update c h (reachedAt log c h) event :=
  List.foldl_concat ..

/-- Failures of other pairs do not matter. -/
theorem reachedAt_append_failed (hnew : ∀ event ∈ new, ∃ c h, event = failed c h) :
    reachedAt (log ++ new) c h = if failed c h ∈ new then none else reachedAt log c h := by
  induction new using List.reverseRecOn with
  | nil => simp
  | append_singleton new event ih =>
      obtain ⟨c', h', rfl⟩ := hnew event (List.mem_append_right _ (List.mem_singleton_self event))
      rw [← List.append_assoc, reachedAt_concat, update,
        ih fun event hevent => hnew event (List.mem_append_left _ hevent)]
      simp only [List.mem_append, List.mem_singleton, failed.injEq]
      by_cases hpair : c' = c ∧ h' = h
      · rw [if_pos hpair, if_pos (.inr ⟨hpair.1.symm, hpair.2.symm⟩)]
      · rw [if_neg hpair]
        refine if_congr ?_ rfl rfl
        exact ⟨.inl, fun hor => hor.resolve_right fun heq => hpair ⟨heq.1.symm, heq.2.symm⟩⟩

/-- An event behind a history, of this pair or of another. -/
theorem live_concat (event : SenseLog) : Live (log ++ [event]) c h ↔
    (∃ host port, event = registered c h host port) ∨ (event ≠ failed c h ∧ Live log c h) := by
  constructor
  · rintro ⟨before, after, host, port, heq, hafter⟩
    rcases List.eq_nil_or_concat' after with rfl | ⟨after, last, rfl⟩
    · exact .inl ⟨host, port, List.head_eq_of_cons_eq (List.append_inj' heq rfl).2⟩
    · rw [← List.cons_append, ← List.append_assoc] at heq
      obtain ⟨hlog, hlast⟩ := List.append_inj' heq rfl
      obtain rfl := List.head_eq_of_cons_eq hlast
      rw [List.mem_append, List.mem_singleton, not_or] at hafter
      exact .inr ⟨fun hfailed => hafter.2 hfailed.symm, before, after, host, port, hlog, hafter.1⟩
  · rintro (⟨host, port, rfl⟩ | ⟨hne, before, after, host, port, rfl, hafter⟩)
    · exact ⟨log, [], host, port, rfl, List.not_mem_nil⟩
    · refine ⟨before, after ++ [event], host, port, by simp, ?_⟩
      rw [List.mem_append, List.mem_singleton, not_or]
      exact ⟨hafter, fun hfailed => hne hfailed.symm⟩

/-- **A pair can be reached exactly if it is registered.** -/
theorem isSome_reachedAt_iff : (reachedAt log c h).isSome ↔ Live log c h := by
  induction log using List.reverseRecOn with
  | nil =>
      refine iff_of_false (by simp [reachedAt]) ?_
      rintro ⟨before, after, host, port, heq, -⟩
      exact List.append_ne_nil_of_right_ne_nil before (List.cons_ne_nil _ after) heq.symm
  | append_singleton log event ih =>
      rw [reachedAt_concat, live_concat, ← ih]
      cases event with
      | registered c' h' host port =>
          by_cases hpair : c' = c ∧ h' = h
          · obtain ⟨rfl, rfl⟩ := hpair
            simp [update]
          · rw [update, if_neg hpair]
            simp only [registered.injEq, reduceCtorEq, ne_eq, not_false_eq_true, true_and]
            grind
      | failed c' h' =>
          by_cases hpair : c' = c ∧ h' = h
          · obtain ⟨rfl, rfl⟩ := hpair
            simp [update]
          · rw [update, if_neg hpair]
            simp only [reduceCtorEq, failed.injEq, exists_const, false_or, ne_eq, hpair,
              not_false_eq_true, true_and]

/-- **It is reached where the registration says that created its entry.** -/
theorem created_of_reachedAt {host : CString} {port : CInt}
    (hreached : reachedAt log c h = some (host, port)) : Created log c h host port := by
  induction log using List.reverseRecOn with
  | nil => cases hreached
  | append_singleton log event ih =>
      rw [reachedAt_concat] at hreached
      have hlater (hold : reachedAt log c h = some (host, port)) (hne : event ≠ failed c h) :
          Created (log ++ [event]) c h host port := by
        obtain ⟨before, after, rfl, hbefore, hafter⟩ := ih hold
        refine ⟨before, after ++ [event], by simp, hbefore, ?_⟩
        rw [List.mem_append, List.mem_singleton, not_or]
        exact ⟨hafter, fun hfailed => hne hfailed.symm⟩
      cases event with
      | registered c' h' host' port' =>
          rw [update] at hreached
          split at hreached
          case isTrue hpair =>
            obtain ⟨rfl, rfl⟩ := hpair
            cases hold : reachedAt log c' h' with
            | some reached =>
                rw [hold, Option.some_or] at hreached
                exact hlater (hold.trans hreached) (by simp)
            -- nobody had registered the pair, or a connect has failed since
            | none =>
                rw [hold, Option.none_or] at hreached
                cases hreached
                refine ⟨log, [], rfl, ?_, List.not_mem_nil⟩
                rw [← isSome_reachedAt_iff, hold]
                simp
          case isFalse => exact hlater hreached (by simp)
      | failed c' h' =>
          rw [update] at hreached
          split at hreached
          case isTrue => cases hreached
          case isFalse hpair =>
            refine hlater hreached ?_
            rw [Ne, failed.injEq]
            exact hpair

end SenseLog

/-! ## The two threads -/

/-- What a SENSITIVITY says. -/
structure SensitivityMsg where
  msgFrom : SosGuid
  senseHandle : CString
  remoteHost : CString
  remotePort : CInt

/-- **The list**, and the number of entries that were made for it. What
happened to its pairs is kept for the statements. -/
structure SenseState where
  mem : Memory ℕ SenseEntry
  senseListHead : Option ℕ
  made : ℕ
  log : List SenseLog

/-- What a thread does with the list while it has the lock. An entry goes to the
address that is allocated for it, with the guid that is drawn. -/
inductive SenseEvent where
  | sensitivity (m : SensitivityMsg) (addr : ℕ) (guid : SosGuid)
  | payload (handle : CString) (connects : ℕ → Bool)

namespace SenseState

/-- Nobody has registered. -/
def start : SenseState := ⟨fun _ => none, none, 0, []⟩

/-- The scan for a duplicate, `OK_to_add`. -/
def okToAdd (mem : Memory ℕ SenseEntry) (m : SensitivityMsg) : ℕ → Option ℕ → Option Bool
  | turns, entry => match entry with
    | none => some true
    | some a => match turns with
      | 0 => none
      | turns + 1 => (mem a).bind fun cell =>
          if cell.val.clientGuid = m.msgFrom ∧ m.senseHandle = cell.val.senseHandle then some false
          else okToAdd mem m turns cell.next

variable (s : SenseState)

/-- The entry, in front of the list. -/
def add (m : SensitivityMsg) (addr : ℕ) (guid : SosGuid) : SenseState :=
  { s with
    mem := Function.update s.mem addr
      (some ⟨⟨guid, m.senseHandle, m.msgFrom, m.remoteHost, m.remotePort⟩, s.senseListHead⟩)
    senseListHead := some addr
    made := s.made + 1 }

/-- **`SOSD_handle_sensitivity`.** -/
def sosdHandleSensitivity (m : SensitivityMsg) (addr : ℕ) (guid : SosGuid) : Option SenseState :=
  if s.mem addr ≠ none then none
  else (okToAdd s.mem m s.made s.senseListHead).map fun ok =>
    { (if ok then s.add m addr guid else s) with
      log := s.log ++ [.registered m.msgFrom m.senseHandle m.remoteHost m.remotePort] }

/-- The failure of a connect, as the history has it. -/
def failure (connects : ℕ → Bool) (a : ℕ) : Option SenseLog :=
  if connects a then none
  else (s.mem a).map fun cell => .failed cell.val.clientGuid cell.val.senseHandle

/-- **A PAYLOAD task.** -/
def deliver (handle : CString) (connects : ℕ → Bool) : Option SenseState :=
  (feedbackPayload handle connects s.made s.mem s.senseListHead).map fun walked =>
    { s with
      mem := walked.mem
      senseListHead := walked.senseListHead
      log := s.log ++ walked.attempts.filterMap (s.failure connects) }

end SenseState

/-- **One of the two**, as a whole. -/
def senseStep (s : SenseState) : SenseEvent → Option SenseState
  | .sensitivity m addr guid => s.sosdHandleSensitivity m addr guid
  | .payload handle connects => s.deliver handle connects

namespace SenseState

/-- The pair an entry is for. -/
def pair (c : ℕ × SenseEntry) : SosGuid × CString := (c.2.clientGuid, c.2.senseHandle)

/-- **The list is the registry**: no pair is in it twice, exactly those are in it
that are registered, and each is reached where the registration says that
created its entry. -/
structure RegistryRight (s : SenseState) (entries : List (ℕ × SenseEntry)) : Prop where
  list : Segment s.mem s.senseListHead entries none
  distinct : (entries.map pair).Nodup
  listed : ∀ c h, (∃ e ∈ entries, pair e = (c, h)) ↔ SenseLog.Live s.log c h
  created : ∀ e ∈ entries, SenseLog.Created s.log e.2.clientGuid e.2.senseHandle e.2.remoteHost
    e.2.remotePort

/-! ## The invariant -/

/-- **What both keep**: the list has the pairs that can be reached by their history. -/
structure SenseInv (s : SenseState) (entries : List (ℕ × SenseEntry)) : Prop where
  list : Segment s.mem s.senseListHead entries none
  made : entries.length ≤ s.made
  distinct : (entries.map pair).Nodup
  reached : ∀ e ∈ entries, SenseLog.reachedAt s.log e.2.clientGuid e.2.senseHandle =
    some (e.2.remoteHost, e.2.remotePort)
  listed : ∀ c h, SenseLog.reachedAt s.log c h ≠ none → ∃ e ∈ entries, pair e = (c, h)

variable {s s' : SenseState} {entries : List (ℕ × SenseEntry)}

theorem SenseInv.right (h : s.SenseInv entries) : s.RegistryRight entries where
  list := h.list
  distinct := h.distinct
  listed c handle := by
    rw [← SenseLog.isSome_reachedAt_iff, Option.isSome_iff_ne_none]
    refine ⟨?_, h.listed c handle⟩
    rintro ⟨e, he, heq⟩
    obtain ⟨rfl, rfl⟩ := Prod.mk.inj heq
    rw [h.reached e he]
    exact Option.some_ne_none _
  created e he := SenseLog.created_of_reachedAt (h.reached e he)

/-- **The scan** finds an entry for the pair, or walks to the end. -/
theorem okToAdd_eq {mem : Memory ℕ SenseEntry} {m : SensitivityMsg} {turns : ℕ} {entry : Option ℕ}
    (hlist : Segment mem entry entries none) (hturns : entries.length ≤ turns) :
    okToAdd mem m turns entry =
      some (decide ((m.msgFrom, m.senseHandle) ∉ entries.map pair)) := by
  induction entries generalizing entry turns with
  | nil =>
      cases hlist
      unfold okToAdd
      simp
  | cons e rest ih =>
      obtain ⟨turns, rfl⟩ : ∃ t, turns = t + 1 :=
        Nat.exists_eq_succ_of_ne_zero (by rw [List.length_cons] at hturns; omega)
      obtain ⟨rfl, next, hcell, hrest⟩ := hlist
      rw [okToAdd, hcell, Option.bind_some, ih hrest (Nat.le_of_succ_le_succ hturns)]
      have hpair : (m.msgFrom, m.senseHandle) = pair e ↔
          e.2.clientGuid = m.msgFrom ∧ m.senseHandle = e.2.senseHandle := by
        rw [pair, Prod.mk.injEq, eq_comm (a := m.msgFrom)]
      simp only [List.map_cons, List.mem_cons, hpair]
      split
      case isTrue hsame => simp [hsame]
      case isFalse hother => simp [hother]

/-- A registration, in the history of a pair. -/
theorem reachedAt_registered {log : List SenseLog} (m : SensitivityMsg) (c : SosGuid)
    (h : CString) :
    SenseLog.reachedAt
        (log ++ [.registered m.msgFrom m.senseHandle m.remoteHost m.remotePort]) c h =
      if (m.msgFrom, m.senseHandle) = (c, h) then
        (SenseLog.reachedAt log c h).or (some (m.remoteHost, m.remotePort))
      else SenseLog.reachedAt log c h := by
  rw [SenseLog.reachedAt_concat, SenseLog.update]
  simp only [Prod.mk.injEq]

/-- **A registration of a pair that is listed** changes nothing. -/
theorem SenseInv.again (h : s.SenseInv entries) {m : SensitivityMsg}
    (hmem : (m.msgFrom, m.senseHandle) ∈ entries.map pair) :
    SenseInv { s with log := s.log ++
      [.registered m.msgFrom m.senseHandle m.remoteHost m.remotePort] } entries := by
  have hsame (c : SosGuid) (handle : CString) : SenseLog.reachedAt (s.log ++
      [.registered m.msgFrom m.senseHandle m.remoteHost m.remotePort]) c handle =
        SenseLog.reachedAt s.log c handle := by
    rw [reachedAt_registered]
    split
    case isTrue hpair =>
      obtain ⟨e, he, heq⟩ := List.mem_map.mp hmem
      obtain ⟨rfl, rfl⟩ := Prod.mk.inj (heq.trans hpair)
      rw [h.reached e he, Option.some_or]
    case isFalse => rfl
  refine ⟨h.list, h.made, h.distinct, ?_, ?_⟩
  · intro e he
    exact (hsame _ _).trans (h.reached e he)
  · intro c handle hreached
    exact h.listed c handle (hsame c handle ▸ hreached)

/-- **A registration of another pair** puts its entry in front. -/
theorem SenseInv.add (h : s.SenseInv entries) {m : SensitivityMsg} {addr : ℕ} {guid : SosGuid}
    (hfresh : s.mem addr = none) (hnew : (m.msgFrom, m.senseHandle) ∉ entries.map pair) :
    SenseInv { s.add m addr guid with log := s.log ++
        [.registered m.msgFrom m.senseHandle m.remoteHost m.remotePort] }
      ((addr, ⟨guid, m.senseHandle, m.msgFrom, m.remoteHost, m.remotePort⟩) :: entries) := by
  have hnone : SenseLog.reachedAt s.log m.msgFrom m.senseHandle = none := by
    by_contra hreached
    obtain ⟨e, he, heq⟩ := h.listed _ _ hreached
    exact hnew (heq ▸ List.mem_map_of_mem he)
  have hother : ∀ e ∈ entries, (m.msgFrom, m.senseHandle) ≠ pair e := by
    intro e he heq
    exact hnew (heq ▸ List.mem_map_of_mem he)
  refine ⟨⟨rfl, s.senseListHead, Function.update_self .., ?_⟩, Nat.succ_le_succ h.made,
    List.nodup_cons.mpr ⟨hnew, h.distinct⟩, ?_, ?_⟩
  · refine h.list.congr fun e he => Function.update_of_ne ?_ ..
    rintro rfl
    obtain ⟨next, hcell⟩ := h.list.cell he
    rw [hfresh] at hcell
    cases hcell
  · intro e he
    show SenseLog.reachedAt (s.log ++ _) _ _ = _
    rw [reachedAt_registered]
    rcases List.mem_cons.mp he with rfl | hold
    · rw [if_pos rfl, hnone, Option.none_or]
    · rw [if_neg (show _ ≠ (e.2.clientGuid, e.2.senseHandle) from hother e hold)]
      exact h.reached e hold
  · intro c handle hreached
    change SenseLog.reachedAt (s.log ++ _) _ _ ≠ none at hreached
    rw [reachedAt_registered] at hreached
    split at hreached
    case isTrue hpair => exact ⟨_, List.mem_cons_self, hpair⟩
    case isFalse =>
      obtain ⟨e, he, heq⟩ := h.listed c handle hreached
      exact ⟨e, List.mem_cons_of_mem _ he, heq⟩

/-- **A SENSITIVITY is handled** once there is memory for it. -/
theorem SenseInv.sensitivity (h : s.SenseInv entries) (m : SensitivityMsg) {addr : ℕ}
    (guid : SosGuid) (hfresh : s.mem addr = none) :
    ∃ s' entries', s.sosdHandleSensitivity m addr guid = some s' ∧ s'.SenseInv entries' := by
  rw [sosdHandleSensitivity, if_neg (not_not.mpr hfresh), okToAdd_eq h.list h.made]
  by_cases hmem : (m.msgFrom, m.senseHandle) ∈ entries.map pair
  · refine ⟨_, entries, rfl, ?_⟩
    simp only [decide_not, hmem, decide_true, Bool.not_true, Bool.false_eq_true, if_false]
    exact h.again hmem
  · refine ⟨_, (addr, ⟨guid, m.senseHandle, m.msgFrom, m.remoteHost, m.remotePort⟩) :: entries, rfl,
      ?_⟩
    simp only [decide_not, hmem, decide_false, Bool.not_false, if_true]
    exact h.add hfresh hmem

/-- A walk puts failures into the history. -/
theorem exists_failed_of_mem {attempts : List ℕ} {connects : ℕ → Bool} {event : SenseLog}
    (hevent : event ∈ attempts.filterMap (s.failure connects)) :
    ∃ c sense, event = .failed c sense := by
  obtain ⟨a, ha, hfail⟩ := List.mem_filterMap.mp hevent
  rw [failure] at hfail
  split at hfail
  · cases hfail
  · obtain ⟨cell, -, rfl⟩ := Option.map_eq_some_iff.mp hfail
    exact ⟨_, _, rfl⟩

/-- **Which failures**: those of the entries that were tried and not reached. -/
theorem failed_mem_iff (hlist : Segment s.mem s.senseListHead entries none) {attempts : List ℕ}
    {connects : ℕ → Bool} (hattempts : ∀ a ∈ attempts, ∃ e ∈ entries, e.1 = a)
    (c : SosGuid) (sense : CString) :
    .failed c sense ∈ attempts.filterMap (s.failure connects) ↔
      ∃ e ∈ entries, (e.1 ∈ attempts ∧ connects e.1 = false) ∧ pair e = (c, sense) := by
  have hfailure (e : ℕ × SenseEntry) (he : e ∈ entries) (hconnects : connects e.1 = false) :
      s.failure connects e.1 = some (.failed e.2.clientGuid e.2.senseHandle) := by
    obtain ⟨next, hcell⟩ := hlist.cell he
    rw [failure, hconnects, hcell]
    rfl
  rw [List.mem_filterMap]
  constructor
  · rintro ⟨a, ha, hfail⟩
    obtain ⟨e, he, rfl⟩ := hattempts a ha
    have hconnects : connects e.1 = false := by
      by_contra hne
      rw [failure, if_pos (Bool.eq_true_of_not_eq_false hne)] at hfail
      cases hfail
    rw [hfailure e he hconnects] at hfail
    obtain ⟨rfl, rfl⟩ := SenseLog.failed.inj (Option.some.inj hfail)
    exact ⟨e, he, ⟨ha, hconnects⟩, rfl⟩
  · rintro ⟨e, he, ⟨ha, hconnects⟩, heq⟩
    obtain ⟨rfl, rfl⟩ := Prod.mk.inj heq
    exact ⟨e.1, ha, hfailure e he hconnects⟩

/-- **A PAYLOAD is delivered**, and whoever it failed for is no longer registered. -/
theorem SenseInv.payload (h : s.SenseInv entries) (handle : CString) (connects : ℕ → Bool) :
    ∃ s' entries', s.deliver handle connects = some s' ∧ s'.SenseInv entries' := by
  obtain ⟨walked, hwalk, hattempts, hlist⟩ := list_of_walk h.list handle connects h.made
  have hfailed : ∀ c sense, .failed c sense ∈ walked.attempts.filterMap (s.failure connects) ↔ _ :=
    failed_mem_iff h.list hattempts
  have hall : ∀ event ∈ walked.attempts.filterMap (s.failure connects), ∃ c sense,
      event = .failed c sense := fun event hevent => exists_failed_of_mem hevent
  have hkept (e : ℕ × SenseEntry) : e ∈ entries.filter (fun c =>
      !(decide (c.1 ∈ walked.attempts) && !connects c.1)) ↔
        e ∈ entries ∧ ¬ (e.1 ∈ walked.attempts ∧ connects e.1 = false) := by
    rw [List.mem_filter, Bool.not_eq_true', ← Bool.not_eq_true, Bool.and_eq_true, decide_eq_true_eq,
      Bool.not_eq_true']
  refine ⟨_, _, Option.map_eq_some_iff.mpr ⟨walked, hwalk, rfl⟩, hlist,
    (List.length_filter_le _ _).trans h.made, ?_, ?_, ?_⟩
  · exact h.distinct.sublist (List.filter_sublist.map pair)
  · intro e he
    obtain ⟨hold, hstays⟩ := (hkept e).mp he
    show SenseLog.reachedAt (s.log ++ _) _ _ = _
    rw [SenseLog.reachedAt_append_failed hall, if_neg, h.reached e hold]
    -- another entry that failed has another pair
    rw [hfailed]
    rintro ⟨e', he', hgone, heq⟩
    obtain rfl := List.inj_on_of_nodup_map h.distinct he' hold heq
    exact hstays hgone
  · intro c sense hreached
    change SenseLog.reachedAt (s.log ++ _) _ _ ≠ none at hreached
    rw [SenseLog.reachedAt_append_failed hall] at hreached
    split at hreached
    case isTrue => exact absurd rfl hreached
    case isFalse hstays =>
      obtain ⟨e, he, heq⟩ := h.listed c sense hreached
      refine ⟨e, (hkept e).mpr ⟨he, fun hgone => ?_⟩, heq⟩
      exact hstays ((hfailed c sense).mpr ⟨e, he, hgone, heq⟩)

theorem senseInv_start : start.SenseInv [] where
  list := rfl
  made := Nat.zero_le _
  distinct := List.nodup_nil
  reached _ he := absurd he List.not_mem_nil
  listed _ _ hreached := absurd rfl hreached

/-- **Either event** keeps the invariant. -/
theorem senseInv_step (s : SenseState) (event : SenseEvent) (s' : SenseState)
    (h : ∃ entries, s.SenseInv entries) (hstep : senseStep s event = some s') :
    ∃ entries, s'.SenseInv entries := by
  obtain ⟨entries, h⟩ := h
  cases event with
  | sensitivity m addr guid =>
      have hfresh : s.mem addr = none := by
        by_contra hne
        change s.sosdHandleSensitivity m addr guid = some s' at hstep
        rw [sosdHandleSensitivity, if_pos hne] at hstep
        cases hstep
      obtain ⟨s'', entries', hs'', hinv⟩ := h.sensitivity m guid hfresh
      obtain rfl := Option.some.inj (hs''.symm.trans hstep)
      exact ⟨entries', hinv⟩
  | payload handle connects =>
      obtain ⟨s'', entries', hs'', hinv⟩ := h.payload handle connects
      obtain rfl := Option.some.inj (hs''.symm.trans hstep)
      exact ⟨entries', hinv⟩

end SenseState

open SenseState

/-- **The registry of sensitivities**, in every state a run reaches; and every
event can be handled there, a registration with memory for its entry. -/
theorem sensitivity_registry {events : List SenseEvent} {s : SenseState}
    (hrun : run senseStep .start events = some s) :
    (∃ entries, s.RegistryRight entries) ∧
      (∀ m addr guid, s.mem addr = none → ∃ s', senseStep s (.sensitivity m addr guid) = some s') ∧
      ∀ handle connects, ∃ s', senseStep s (.payload handle connects) = some s' := by
  obtain ⟨entries, h⟩ := run_preserves senseInv_step ⟨[], senseInv_start⟩ hrun
  refine ⟨⟨entries, h.right⟩, ?_, ?_⟩
  · intro m addr guid hfresh
    obtain ⟨s', -, hs', -⟩ := h.sensitivity m guid hfresh
    exact ⟨s', hs'⟩
  · intro handle connects
    obtain ⟨s', -, hs', -⟩ := h.payload handle connects
    exact ⟨s', hs'⟩

/-- Two clients register for a handle, the first of them twice; then it is gone,
and registers at another port. -/
def senseEvents : List SenseEvent :=
  [.sensitivity ⟨7, nameX, .empty, 1⟩ 0 100, .sensitivity ⟨8, nameX, .empty, 2⟩ 1 101,
    .sensitivity ⟨7, nameX, .empty, 3⟩ 2 102, .payload nameX (· != 0),
    .sensitivity ⟨7, nameX, .empty, 4⟩ 0 103]

theorem sensitivity_registry_again :
    ∃ s, run senseStep .start senseEvents = some s ∧ ∃ entries, s.RegistryRight entries ∧
      SenseLog.Live s.log 7 nameX ∧ entries ≠ [] := by
  have hruns : ((run senseStep .start senseEvents).map fun s =>
      (s.log.getLast?, s.senseListHead)) = some (some (.registered 7 nameX .empty 4), some 0) := by
    decide
  obtain ⟨s, hs, heq⟩ := Option.map_eq_some_iff.mp hruns
  obtain ⟨hlast, hhead⟩ := Prod.mk.inj heq
  obtain ⟨entries, hright⟩ := (sensitivity_registry hs).1
  refine ⟨s, hs, entries, hright, ?_, ?_⟩
  · obtain ⟨before, hbefore⟩ := List.getLast?_eq_some_iff.mp hlast
    exact ⟨before, [], .empty, 4, hbefore, List.not_mem_nil⟩
  · rintro rfl
    have hnull : s.senseListHead = none := hright.list
    rw [hhead] at hnull
    cases hnull

end SosFlow
