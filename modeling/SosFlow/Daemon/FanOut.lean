import SosFlow.Basic
import SosFlow.Lib.Linked

/-!
# A payload for every client that asked for it

The feedback thread walks the list of sensitivities with a payload in hand.
It tries to connect to the client of every entry with the payload's handle,
and takes an entry out of the list when that fails. Behind a survivor the
walk goes on at what is now next of it; but an entry at the head has nothing
in front, and there the walk ends. So the payload goes where it should
unless the first entry is one that fails and another one matches
(`fan_out_iff`).
-/

namespace SosFlow

open Linked

/-- `SOSD_sensitivity_entry`, without its link and its socket. -/
structure SenseEntry where
  guid : SosGuid
  senseHandle : CString
  clientGuid : SosGuid
  remoteHost : CString
  remotePort : CInt
deriving DecidableEq

/-- **The walk**: the list, the two pointers into it, and the clients that were
tried and sent to, by the addresses of their entries. -/
structure FanOut (A : Type*) where
  mem : Memory A SenseEntry
  senseListHead : Option A
  sense : Option A
  prevSense : Option A
  attempts : List A
  sends : List A

variable {A : Type*} [DecidableEq A]

/-- The pointer to an entry is set to the one behind it. -/
def FanOut.unlink (s : FanOut A) (a : A) (next : Option A) : Option (FanOut A) :=
  if s.senseListHead = some a then some { s with senseListHead := next }
  else s.prevSense.map fun prev => { s with mem := setNext s.mem prev next }

/-- Where the walk goes on behind an entry that was taken out. -/
def FanOut.resume (s : FanOut A) : Option (FanOut A) :=
  match s.prevSense with
  | none => some { s with sense := none }
  | some prev => (s.mem prev).map fun before => { s with sense := before.next }

/-- An entry whose client cannot be connected to is taken out and freed. -/
def FanOut.remove (s : FanOut A) (a : A) (next : Option A) : Option (FanOut A) :=
  (s.unlink a next).bind fun u => { u with mem := release u.mem a }.resume

/-- **One turn of the walk**, with the outcome a connect has for each entry. -/
def FanOut.turn (handle : CString) (connects : A → Bool) (s : FanOut A) (a : A) :
    Option (FanOut A) := do
  let cell ← s.mem a
  if handle = cell.val.senseHandle then
    let tried := { s with attempts := s.attempts ++ [a] }
    if connects a then
      some { tried with sends := s.sends ++ [a], prevSense := some a, sense := cell.next }
    else tried.remove a cell.next
  else some { s with prevSense := some a, sense := cell.next }

/-- The walk, in at most `turns`. -/
def FanOut.walk (handle : CString) (connects : A → Bool) : ℕ → FanOut A → Option (FanOut A)
  | turns, s => match s.sense with
    | none => some s
    | some a => match turns with
      | 0 => none
      | turns + 1 => (s.turn handle connects a).bind (walk handle connects turns)

/-- **The PAYLOAD feedback task**, on the list at the head. -/
def feedbackPayload (handle : CString) (connects : A → Bool) (turns : ℕ)
    (mem : Memory A SenseEntry) (head : Option A) : Option (FanOut A) :=
  FanOut.walk handle connects turns ⟨mem, head, head, none, [], []⟩

/-! ## What the task is for -/

/-- The entry asks for the payload. -/
def Wanted (handle : CString) (c : A × SenseEntry) : Bool := decide (handle = c.2.senseHandle)

/-- The payload reaches its client. -/
def Reached (handle : CString) (connects : A → Bool) (c : A × SenseEntry) : Bool :=
  Wanted handle c && connects c.1

/-- It stays in the list. -/
def Stays (handle : CString) (connects : A → Bool) (c : A × SenseEntry) : Bool :=
  !Wanted handle c || connects c.1

/-- **What the task is for**: every entry that asks for the payload is tried once,
it is sent once to those whose connect succeeds, and the others of them are
taken out of the list. -/
structure FannedOut (handle : CString) (connects : A → Bool) (entries : List (A × SenseEntry))
    (s : FanOut A) : Prop where
  attempts : s.attempts.Perm ((entries.filter (Wanted handle)).map Prod.fst)
  sends : s.sends.Perm ((entries.filter (Reached handle connects)).map Prod.fst)
  list : Segment s.mem s.senseListHead (entries.filter (Stays handle connects)) none

/-- **The walk does not end early**: the first entry does not fail, or no other
asks for the payload. -/
def NotCutShort (handle : CString) (connects : A → Bool) : List (A × SenseEntry) → Prop
  | [] => True
  | first :: rest => Stays handle connects first = false → ∀ c ∈ rest, Wanted handle c = false

section

variable {handle : CString} {connects : A → Bool} {s : FanOut A}

omit [DecidableEq A] in
theorem wanted_iff {c : A × SenseEntry} : Wanted handle c = true ↔ handle = c.2.senseHandle :=
  decide_eq_true_iff

omit [DecidableEq A] in
theorem filter_cons_of_not_wanted (connects : A → Bool) {c : A × SenseEntry}
    (rest : List (A × SenseEntry)) (h : handle ≠ c.2.senseHandle) :
    (c :: rest).filter (Wanted handle) = rest.filter (Wanted handle) ∧
      (c :: rest).filter (Reached handle connects) = rest.filter (Reached handle connects) ∧
      (c :: rest).filter (Stays handle connects) = c :: rest.filter (Stays handle connects) := by
  have hwanted : Wanted handle c = false := decide_eq_false h
  simp [Reached, Stays, hwanted]

omit [DecidableEq A] in
theorem filter_cons_of_reached {c : A × SenseEntry} (rest : List (A × SenseEntry))
    (h : handle = c.2.senseHandle) (hc : connects c.1 = true) :
    (c :: rest).filter (Wanted handle) = c :: rest.filter (Wanted handle) ∧
      (c :: rest).filter (Reached handle connects) = c :: rest.filter (Reached handle connects) ∧
      (c :: rest).filter (Stays handle connects) = c :: rest.filter (Stays handle connects) := by
  have hwanted : Wanted handle c = true := decide_eq_true h
  simp [Reached, Stays, hwanted, hc]

omit [DecidableEq A] in
theorem filter_cons_of_failed {c : A × SenseEntry} (rest : List (A × SenseEntry))
    (h : handle = c.2.senseHandle) (hc : connects c.1 = false) :
    (c :: rest).filter (Wanted handle) = c :: rest.filter (Wanted handle) ∧
      (c :: rest).filter (Reached handle connects) = rest.filter (Reached handle connects) ∧
      (c :: rest).filter (Stays handle connects) = rest.filter (Stays handle connects) := by
  have hwanted : Wanted handle c = true := decide_eq_true h
  simp [Reached, Stays, hwanted, hc]

/-! ## The turns -/

/-- An entry that stays is passed. -/
theorem turn_of_not_wanted {c : A × SenseEntry} {next : Option A}
    (hcell : s.mem c.1 = some ⟨c.2, next⟩) (h : handle ≠ c.2.senseHandle) :
    s.turn handle connects c.1 = some { s with prevSense := some c.1, sense := next } := by
  rw [FanOut.turn, hcell, Option.bind_eq_bind, Option.bind_some]
  exact if_neg h

theorem turn_of_reached {c : A × SenseEntry} {next : Option A}
    (hcell : s.mem c.1 = some ⟨c.2, next⟩) (h : handle = c.2.senseHandle)
    (hc : connects c.1 = true) :
    s.turn handle connects c.1 = some { s with
      attempts := s.attempts ++ [c.1], sends := s.sends ++ [c.1]
      prevSense := some c.1, sense := next } := by
  rw [FanOut.turn, hcell, Option.bind_eq_bind, Option.bind_some, if_pos h, if_pos hc]

/-- The first entry is taken out, and the walk ends. -/
theorem turn_of_first_failed {c : A × SenseEntry} {next : Option A}
    (hcell : s.mem c.1 = some ⟨c.2, next⟩) (h : handle = c.2.senseHandle)
    (hc : connects c.1 = false) (hhead : s.senseListHead = some c.1) (hprev : s.prevSense = none) :
    s.turn handle connects c.1 = some { s with
      attempts := s.attempts ++ [c.1], mem := release s.mem c.1
      senseListHead := next, sense := none } := by
  rw [FanOut.turn, hcell, Option.bind_eq_bind, Option.bind_some, if_pos h, hc]
  simp only [Bool.false_eq_true, if_false, FanOut.remove, FanOut.unlink, if_pos hhead,
    Option.bind_some, FanOut.resume, hprev]

/-- Another one is taken out, and the walk goes on behind the one in front. -/
theorem turn_of_failed {c last : A × SenseEntry} {next : Option A}
    (hcell : s.mem c.1 = some ⟨c.2, next⟩) (h : handle = c.2.senseHandle)
    (hc : connects c.1 = false) (hhead : s.senseListHead ≠ some c.1)
    (hprev : s.prevSense = some last.1) {cell : Cell A SenseEntry} (hlast : s.mem last.1 = some cell)
    (hne : last.1 ≠ c.1) :
    s.turn handle connects c.1 = some { s with
      attempts := s.attempts ++ [c.1], mem := release (setNext s.mem last.1 next) c.1
      sense := next } := by
  have hbefore : release (setNext s.mem last.1 next) c.1 last.1 = some { cell with next := next } := by
    rw [release_of_ne _ hne, setNext_self next hlast]
  rw [FanOut.turn, hcell, Option.bind_eq_bind, Option.bind_some, if_pos h, hc]
  simp only [Bool.false_eq_true, if_false, FanOut.remove, FanOut.unlink, if_neg hhead, hprev,
    Option.map_some, Option.bind_some, FanOut.resume, hbefore]

/-! ## The walk -/

/-- **Behind an entry that stays** the walk does what the task is for. -/
theorem walk_behind (handle : CString) (connects : A → Bool) {kept todo : List (A × SenseEntry)}
    {last : A × SenseEntry} {turns : ℕ}
    (hbefore : Segment s.mem s.senseListHead (kept ++ [last]) s.sense)
    (htodo : Segment s.mem s.sense todo none) (hprev : s.prevSense = some last.1)
    (hturns : todo.length ≤ turns) :
    ∃ s', FanOut.walk handle connects turns s = some s' ∧
      s'.attempts = s.attempts ++ (todo.filter (Wanted handle)).map Prod.fst ∧
      s'.sends = s.sends ++ (todo.filter (Reached handle connects)).map Prod.fst ∧
      Segment s'.mem s'.senseListHead (kept ++ [last] ++ todo.filter (Stays handle connects)) none := by
  induction todo generalizing s kept last turns with
  | nil =>
      have hend : s.sense = none := htodo
      refine ⟨s, by unfold FanOut.walk; rw [hend], by simp, by simp, ?_⟩
      rw [hend] at hbefore
      simpa using hbefore
  | cons c rest ih =>
      obtain ⟨turns, rfl⟩ : ∃ t, turns = t + 1 :=
        Nat.exists_eq_succ_of_ne_zero (by rw [List.length_cons] at hturns; omega)
      have hrest : rest.length ≤ turns := Nat.le_of_succ_le_succ hturns
      have hnodup := (segment_append.mpr ⟨_, hbefore, htodo⟩).nodup
      obtain ⟨hsense, next, hcell, hnext⟩ := htodo
      rw [FanOut.walk, hsense]
      dsimp only
      -- a pointer of the list is moved past an entry that stays
      have hbehind : Segment s.mem s.senseListHead (kept ++ [last] ++ [c]) next :=
        segment_append.mpr ⟨some c.1, hsense ▸ hbefore, rfl, next, hcell, rfl⟩
      by_cases hwanted : handle = c.2.senseHandle
      case neg =>
        obtain ⟨hw, hr, hs⟩ := filter_cons_of_not_wanted connects rest hwanted
        rw [turn_of_not_wanted hcell hwanted, Option.bind_some, hw, hr, hs]
        obtain ⟨s', hwalk, hattempts, hsends, hlist⟩ :=
          ih (s := { s with prevSense := some c.1, sense := next }) hbehind hnext rfl hrest
        exact ⟨s', hwalk, hattempts, hsends, by simpa using hlist⟩
      case pos =>
        cases hc : connects c.1 with
        | true =>
            obtain ⟨hw, hr, hs⟩ := filter_cons_of_reached rest hwanted hc
            rw [turn_of_reached hcell hwanted hc, Option.bind_some, hw, hr, hs]
            obtain ⟨s', hwalk, hattempts, hsends, hlist⟩ :=
              ih (s := { s with
                  attempts := s.attempts ++ [c.1], sends := s.sends ++ [c.1]
                  prevSense := some c.1, sense := next }) hbehind hnext rfl hrest
            exact ⟨s', hwalk, by simpa using hattempts, by simpa using hsends, by simpa using hlist⟩
        | false =>
            obtain ⟨hw, hr, hs⟩ := filter_cons_of_failed rest hwanted hc
            have hother : ∀ other ∈ kept ++ [last], other.1 ≠ c.1 := by
              intro other hother heq
              rw [List.map_append, List.map_cons, List.nodup_append] at hnodup
              exact hnodup.2.2 other.1 (List.mem_map_of_mem hother) c.1 List.mem_cons_self heq
            have hrestne : ∀ other ∈ rest, other.1 ≠ c.1 ∧ other.1 ≠ last.1 := by
              intro other hmem
              rw [List.map_append, List.map_cons, List.nodup_append] at hnodup
              obtain ⟨-, htail, hacross⟩ := hnodup
              refine ⟨fun heq => ?_, fun heq => ?_⟩
              · exact (List.nodup_cons.mp htail).1 (heq ▸ List.mem_map_of_mem hmem)
              · have hlast : last.1 ∈ (kept ++ [last]).map Prod.fst :=
                  List.mem_map_of_mem (List.mem_append_right _ (List.mem_singleton_self last))
                exact hacross _ hlast _ (List.mem_cons_of_mem _ (List.mem_map_of_mem hmem)) heq.symm
            have hkept : ∀ other ∈ kept, other.1 ≠ last.1 := by
              intro other hmem heq
              rw [List.map_append, List.map_append, List.nodup_append, List.nodup_append] at hnodup
              exact hnodup.1.2.2 other.1 (List.mem_map_of_mem hmem) last.1 (by simp) heq
            have hhead : s.senseListHead ≠ some c.1 := by
              obtain ⟨first, hfirst, hstart⟩ := hbefore.start_mem (by simp)
              rw [hstart]
              exact fun heq => hother first hfirst (Option.some.inj heq)
            obtain ⟨mid, -, hmid⟩ := segment_append.mp hbefore
            obtain ⟨-, after, hlast⟩ := hmid.head
            have hne := hother last (List.mem_append_right _ (List.mem_singleton_self last))
            rw [turn_of_failed hcell hwanted hc hhead hprev hlast hne, Option.bind_some, hw, hr, hs]
            have hjoined : Segment (release (setNext s.mem last.1 next) c.1) s.senseListHead
                (kept ++ [last]) next :=
              (hbefore.setNext_last hkept).release hother
            have hahead : Segment (release (setNext s.mem last.1 next) c.1) next rest none :=
              (hnext.setNext fun other h => (hrestne other h).2).release fun other h =>
                (hrestne other h).1
            obtain ⟨s', hwalk, hattempts, hsends, hlist⟩ :=
              ih (s := { s with
                  attempts := s.attempts ++ [c.1], mem := release (setNext s.mem last.1 next) c.1
                  sense := next }) hjoined hahead hprev hrest
            exact ⟨s', hwalk, by simpa using hattempts, hsends, hlist⟩

/-- **A first entry that stays** has the others behind it. -/
theorem walk_of_first_stays {mem : Memory A SenseEntry} {first : A × SenseEntry}
    {rest : List (A × SenseEntry)} (hlist : Segment mem (some first.1) (first :: rest) none)
    (hstays : Stays handle connects first = true) :
    ∃ s, feedbackPayload handle connects (rest.length + 1) mem (some first.1) = some s ∧
      FannedOut handle connects (first :: rest) s := by
  obtain ⟨-, next, hcell, hrest⟩ := hlist
  have hbehind : Segment mem (some first.1) ([] ++ [first]) next := ⟨rfl, next, hcell, rfl⟩
  rw [feedbackPayload, FanOut.walk]
  dsimp only
  by_cases hwanted : handle = first.2.senseHandle
  case neg =>
    obtain ⟨hw, hr, hs⟩ := filter_cons_of_not_wanted connects rest hwanted
    rw [turn_of_not_wanted hcell hwanted, Option.bind_some]
    obtain ⟨s', hwalk, hattempts, hsends, hafter⟩ :=
      walk_behind handle connects
        (s := ⟨mem, some first.1, next, some first.1, [], []⟩) hbehind hrest rfl le_rfl
    exact ⟨s', hwalk, by simp [hattempts, hw], by simp [hsends, hr], by rw [hs]; simpa using hafter⟩
  case pos =>
    have hc : connects first.1 = true := by
      rw [Stays, wanted_iff.mpr hwanted] at hstays
      exact hstays
    obtain ⟨hw, hr, hs⟩ := filter_cons_of_reached rest hwanted hc
    rw [turn_of_reached hcell hwanted hc, Option.bind_some]
    obtain ⟨s', hwalk, hattempts, hsends, hafter⟩ :=
      walk_behind handle connects
        (s := ⟨mem, some first.1, next, some first.1, [first.1], [first.1]⟩) hbehind hrest rfl le_rfl
    exact ⟨s', hwalk, by simp [hattempts, hw], by simp [hsends, hr], by rw [hs]; simpa using hafter⟩

/-- **A first entry that fails** is the last one that is tried. -/
theorem walk_of_first_fails {mem : Memory A SenseEntry} {first : A × SenseEntry}
    {rest : List (A × SenseEntry)} (hlist : Segment mem (some first.1) (first :: rest) none)
    (hfails : Stays handle connects first = false) :
    ∃ s, feedbackPayload handle connects (rest.length + 1) mem (some first.1) = some s ∧
      s.attempts = [first.1] ∧ s.sends = [] ∧ Segment s.mem s.senseListHead rest none := by
  have hnodup := hlist.nodup
  obtain ⟨-, next, hcell, hrest⟩ := hlist
  have hboth : handle = first.2.senseHandle ∧ connects first.1 = false := by
    rw [Stays, Bool.or_eq_false_iff, Bool.not_eq_false'] at hfails
    exact ⟨wanted_iff.mp hfails.1, hfails.2⟩
  have hother : ∀ other ∈ rest, other.1 ≠ first.1 := by
    intro other hmem heq
    exact (List.nodup_cons.mp hnodup).1 (heq ▸ List.mem_map_of_mem hmem)
  rw [feedbackPayload, FanOut.walk]
  dsimp only
  rw [turn_of_first_failed hcell hboth.1 hboth.2 rfl rfl, Option.bind_some, FanOut.walk]
  exact ⟨_, rfl, rfl, rfl, hrest.release hother⟩

omit [DecidableEq A] in
theorem reached_iff {c : A × SenseEntry} :
    Reached handle connects c = true ↔ handle = c.2.senseHandle ∧ connects c.1 = true := by
  rw [Reached, Bool.and_eq_true, wanted_iff]

/-- **Who the payload is sent to**: all it should reach, or nobody. -/
theorem sends_of_walk {mem : Memory A SenseEntry} {head : Option A}
    {entries : List (A × SenseEntry)} (hlist : Segment mem head entries none) (handle : CString)
    (connects : A → Bool) :
    ∃ s, feedbackPayload handle connects entries.length mem head = some s ∧
      (NotCutShort handle connects entries →
        s.sends.Perm ((entries.filter (Reached handle connects)).map Prod.fst)) ∧
      (s.sends ≠ [] → NotCutShort handle connects entries) := by
  cases entries with
  | nil =>
      cases hlist
      exact ⟨_, rfl, fun _ => .rfl, fun _ => trivial⟩
  | cons first rest =>
      obtain ⟨rfl, -⟩ := hlist.head
      cases hstays : Stays handle connects first with
      | true =>
          obtain ⟨s, hs, hfanned⟩ := walk_of_first_stays hlist hstays
          refine ⟨s, hs, fun _ => hfanned.sends, fun _ hfails => ?_⟩
          rw [hstays] at hfails
          cases hfails
      | false =>
          obtain ⟨s, hs, -, hsends, -⟩ := walk_of_first_fails hlist hstays
          refine ⟨s, hs, fun hshort => ?_, fun hne => absurd hsends hne⟩
          have hnone : (first :: rest).filter (Reached handle connects) = [] := by
            refine List.filter_eq_nil_iff.mpr fun c hc hreached => ?_
            obtain ⟨hwanted, hconnects⟩ := reached_iff.mp hreached
            rcases List.mem_cons.mp hc with rfl | hc
            · rw [Stays, hconnects, Bool.or_true] at hstays
              cases hstays
            · have hnot := hshort hstays c hc
              rw [wanted_iff.mpr hwanted] at hnot
              cases hnot
          rw [hsends, hnone]
          exact .rfl

/-- More turns than the walk takes change nothing. -/
theorem walk_mono {turns more : ℕ} {s' : FanOut A}
    (h : FanOut.walk handle connects turns s = some s') (hle : turns ≤ more) :
    FanOut.walk handle connects more s = some s' := by
  induction turns generalizing s more with
  | zero =>
      unfold FanOut.walk at h ⊢
      cases hsense : s.sense with
      | none =>
          rw [hsense] at h
          exact h
      | some a =>
          rw [hsense] at h
          cases h
  | succ turns ih =>
      obtain ⟨more, rfl⟩ : ∃ m, more = m + 1 := Nat.exists_eq_succ_of_ne_zero (by omega)
      unfold FanOut.walk at h ⊢
      cases hsense : s.sense with
      | none =>
          rw [hsense] at h
          exact h
      | some a =>
          rw [hsense] at h
          obtain ⟨u, hturn, hrest⟩ := Option.bind_eq_some_iff.mp h
          exact Option.bind_eq_some_iff.mpr ⟨u, hturn, ih hrest (by omega)⟩

/-- **What is left of the list**: all but those that were tried and failed,
however far the walk has come. -/
theorem list_of_walk {mem : Memory A SenseEntry} {head : Option A}
    {entries : List (A × SenseEntry)} (hlist : Segment mem head entries none) (handle : CString)
    (connects : A → Bool) {turns : ℕ} (hturns : entries.length ≤ turns) :
    ∃ s, feedbackPayload handle connects turns mem head = some s ∧
      (∀ a ∈ s.attempts, ∃ c ∈ entries, c.1 = a) ∧
      Segment s.mem s.senseListHead
        (entries.filter fun c => !(decide (c.1 ∈ s.attempts) && !connects c.1)) none := by
  cases entries with
  | nil =>
      cases hlist
      have hwalk : feedbackPayload handle connects 0 mem none =
          some ⟨mem, none, none, none, [], []⟩ := rfl
      exact ⟨_, walk_mono hwalk (Nat.zero_le _), by simp, rfl⟩
  | cons first rest =>
      have hnodup := hlist.nodup
      obtain ⟨rfl, -⟩ := hlist.head
      cases hstays : Stays handle connects first with
      | true =>
          obtain ⟨s, hs, hfanned⟩ := walk_of_first_stays hlist hstays
          have hattempts (a : A) : a ∈ s.attempts ↔ ∃ c ∈ first :: rest, handle = c.2.senseHandle ∧
              c.1 = a := by
            rw [hfanned.attempts.mem_iff, List.mem_map]
            simp only [List.mem_filter, wanted_iff, and_assoc]
          refine ⟨s, walk_mono hs hturns, ?_, ?_⟩
          · intro a ha
            obtain ⟨c, hc, -, hca⟩ := (hattempts a).mp ha
            exact ⟨c, hc, hca⟩
          · have hsame : (first :: rest).filter (Stays handle connects) =
                (first :: rest).filter fun c => !(decide (c.1 ∈ s.attempts) && !connects c.1) := by
              refine List.filter_congr fun c hc => ?_
              have htried : c.1 ∈ s.attempts ↔ handle = c.2.senseHandle := by
                rw [hattempts]
                refine ⟨?_, fun hwanted => ⟨c, hc, hwanted, rfl⟩⟩
                rintro ⟨c', hc', hwanted, haddr⟩
                rwa [List.inj_on_of_nodup_map hnodup hc' hc haddr] at hwanted
              simp only [Stays, Wanted, htried, Bool.not_and, Bool.not_not]
            rw [← hsame]
            exact hfanned.list
      | false =>
          obtain ⟨s, hs, hattempts, -, hafter⟩ := walk_of_first_fails hlist hstays
          have hfails : connects first.1 = false := by
            rw [Stays, Bool.or_eq_false_iff] at hstays
            exact hstays.2
          refine ⟨s, walk_mono hs hturns, ?_, ?_⟩
          · rw [hattempts]
            intro a ha
            exact ⟨first, List.mem_cons_self, (List.mem_singleton.mp ha).symm⟩
          · have hrest : (first :: rest).filter (fun c =>
                !(decide (c.1 ∈ s.attempts) && !connects c.1)) = rest := by
              rw [hattempts, List.filter_cons_of_neg (by simp [hfails])]
              refine List.filter_eq_self.mpr fun c hc => ?_
              have hne : c.1 ≠ first.1 := fun heq =>
                (List.nodup_cons.mp hnodup).1 (heq ▸ List.mem_map_of_mem hc)
              simp [hne]
            rw [hrest]
            exact hafter

/-- **The payload goes where it should** if and only if the walk is not cut short
by a first entry that fails. -/
theorem fan_out_iff {mem : Memory A SenseEntry} {head : Option A} {entries : List (A × SenseEntry)}
    (hlist : Segment mem head entries none) (handle : CString) (connects : A → Bool) :
    ∃ s, feedbackPayload handle connects entries.length mem head = some s ∧
      (FannedOut handle connects entries s ↔ NotCutShort handle connects entries) := by
  cases entries with
  | nil =>
      cases hlist
      exact ⟨_, rfl, ⟨fun _ => trivial, fun _ => ⟨.rfl, .rfl, rfl⟩⟩⟩
  | cons first rest =>
      obtain ⟨rfl, -⟩ := hlist.head
      cases hstays : Stays handle connects first with
      | true =>
          obtain ⟨s, hs, hfanned⟩ := walk_of_first_stays hlist hstays
          refine ⟨s, hs, fun _ => ?_, fun _ => hfanned⟩
          intro hfails
          rw [hstays] at hfails
          cases hfails
      | false =>
          obtain ⟨s, hs, hattempts, hsends, hafter⟩ := walk_of_first_fails hlist hstays
          have hboth : handle = first.2.senseHandle ∧ connects first.1 = false := by
            rw [Stays, Bool.or_eq_false_iff, Bool.not_eq_false'] at hstays
            exact ⟨wanted_iff.mp hstays.1, hstays.2⟩
          obtain ⟨hw, hr, hst⟩ := filter_cons_of_failed rest hboth.1 hboth.2
          refine ⟨s, hs, fun hfanned _ c hc => ?_, fun hshort => ?_⟩
          · have hlen := hfanned.attempts.length_eq
            rw [hattempts, hw, List.map_cons, List.length_cons, List.length_cons, List.length_map,
              List.length_nil] at hlen
            have hnil : rest.filter (Wanted handle) = [] :=
              List.eq_nil_of_length_eq_zero (by omega)
            have hnone := List.filter_eq_nil_iff.mp hnil c hc
            exact Bool.eq_false_iff.mpr hnone
          · have hnone : ∀ c ∈ rest, Wanted handle c = false := hshort hstays
            have hwnil : rest.filter (Wanted handle) = [] :=
              List.filter_eq_nil_iff.mpr fun c hc => by simp [hnone c hc]
            have hrnil : rest.filter (Reached handle connects) = [] :=
              List.filter_eq_nil_iff.mpr fun c hc => by simp [Reached, hnone c hc]
            have hall : rest.filter (Stays handle connects) = rest :=
              List.filter_eq_self.mpr fun c hc => by simp [Stays, hnone c hc]
            refine ⟨?_, ?_, ?_⟩
            · rw [hattempts, hw, hwnil]
              exact .rfl
            · rw [hsends, hr, hrnil]
              exact .rfl
            · rw [hst, hall]
              exact hafter

end

/-- The sensitivity of a client to the handle `""`. -/
def plainEntry : SenseEntry := ⟨0, .empty, 0, .empty, 0⟩

/-- Two of them in memory. -/
def twoEntries : Memory ℕ SenseEntry := fun a =>
  if a = 1 then some ⟨plainEntry, some 2⟩ else if a = 2 then some ⟨plainEntry, none⟩ else none

theorem twoEntries_list : Segment twoEntries (some 1) [(1, plainEntry), (2, plainEntry)] none :=
  ⟨rfl, some 2, rfl, rfl, none, rfl, rfl⟩

theorem fan_out_second_fails :
    ∃ s, feedbackPayload .empty (· == 1) 2 twoEntries (some 1) = some s ∧
      FannedOut .empty (· == 1) [(1, plainEntry), (2, plainEntry)] s := by
  obtain ⟨s, hs, hiff⟩ := fan_out_iff twoEntries_list .empty (· == 1)
  exact ⟨s, hs, hiff.mpr fun hfails => (by cases hfails)⟩

/-- **The second client is not tried** when the first one is gone. -/
theorem not_fan_out :
    ∃ s, feedbackPayload .empty (· == 2) 2 twoEntries (some 1) = some s ∧
      ¬ FannedOut .empty (· == 2) [(1, plainEntry), (2, plainEntry)] s := by
  refine ⟨_, rfl, fun h => ?_⟩
  have hlen := h.attempts.length_eq
  revert hlen
  decide

end SosFlow
