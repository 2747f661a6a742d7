import SosFlow.Pipe.Fifo

/-!
# What a pipe keeps, whoever is at it

What each thread pushes leaves it in the order of its calls, whatever the
others do (`FifoInv.outgoing_run`). The bytes that one thread is writing are
never those that another is reading (`FifoInv.toWrite_ne_toRead`). And the
locks are not taken in a circle: where nobody can move, everybody has
returned for good or sleeps on a condition (`FifoInv.asleep_of_stuck`).
-/

namespace SosFlow

open Interleave Trace Cyclic

variable {ι α : Type}

/-- What a call pushes. -/
def PipeCall.elems : PipeCall α → List α
  | .pipePush elems => elems
  | .pipePop _ => []
  | .pipePopEager _ => []

namespace PipePos

/-- The bytes that a push is still to write. -/
def toWrite : PipePos α → List ℕ
  | .pushCopy todo _ _ _ => todo.map Prod.fst
  | _ => []

/-- The bytes that a pop is still to read. -/
def toRead : PipePos α → List ℕ
  | .popCopy todo _ _ _ _ => todo
  | _ => []

/-- The thread sleeps on a condition, and no signal has come for it. -/
def Sleeps (s : PipeShared ι α) (i : ι) : PipePos α → Prop
  | .pushAsleep _ => s.justPopped.Asleep i
  | .popAsleep _ _ => s.justPushed.Asleep i
  | _ => False

end PipePos

namespace PipeUsers

variable {c c' : PipeUsers ι α} {i j : ι} {spurious : Bool} {schedule : List ι}

/-! ## The order of what is pushed -/

variable [DecidableEq ι]

/-- What a thread has put into the pipe. -/
def sentBy (c : PipeUsers ι α) (i : ι) : List α :=
  (c.shared.sent.filter fun x => x.1 = i).map Prod.snd

/-- **All that a thread pushes**: what it has put into the pipe, what it is about to,
and what it will be. -/
def outgoing (c : PipeUsers ι α) (i : ι) : List α :=
  c.sentBy i ++ ((c.thread i).pos.pending ++ (c.thread i).calls.flatMap PipeCall.elems)

omit [DecidableEq ι] in
/-- A push that begins to copy still has all its bytes to push. -/
theorem pending_pushPlan (p : PipeT α) (elems : List α) : (p.pushPlan elems).pending = elems :=
  List.take_append_drop _ _

/-- **What a step of a call does to the buffer**: it stays as large as it is, or is resized. -/
def BufferStep (p p' : PipeT α) : Prop :=
  p.SameSizes p' ∧ p'.buffer.length = p.buffer.length ∨
  (∃ n, p.growFor n = some p') ∨ p.trim = some p'

omit [DecidableEq ι] in
/-- The sizes stay, and a buffer that is resized is larger than `min_cap`. -/
theorem BufferStep.sizes {p p' : PipeT α} (h : BufferStep p p') :
    p.SameSizes p' ∧ (p'.buffer.length = p.buffer.length ∨ p.minCap < p'.capacity) := by
  have hresize : ∀ n, p.resizeBuffer n = some p' →
      p.SameSizes p' ∧ (p'.buffer.length = p.buffer.length ∨ p.minCap < p'.capacity) := by
    intro n hn
    rcases PipeT.resizeBuffer_cases hn with rfl | ⟨hsizes, hlt⟩
    · exact ⟨.refl _, .inl rfl⟩
    · exact ⟨hsizes, .inr hlt⟩
  rcases h with ⟨hsizes, hlength⟩ | ⟨n, hgrow⟩ | htrim
  · exact ⟨hsizes, .inl hlength⟩
  · unfold PipeT.growFor at hgrow
    split at hgrow
    · exact hresize _ hgrow
    · obtain rfl := Option.some.inj hgrow
      exact ⟨.refl _, .inl rfl⟩
  · unfold PipeT.trim at htrim
    split at htrim
    · exact hresize _ htrim
    · obtain rfl := Option.some.inj htrim
      exact ⟨.refl _, .inl rfl⟩

/-- **What a step does for what its thread pushes**: it sends what it then no longer has
to push. -/
structure Effect (i : ι) (s s' : PipeShared ι α) (pos pos' : PipePos α) : Prop where
  sends : ∃ now, s'.sent = s.sent ++ now.map (fun x => (i, x)) ∧
    pos.pending = now ++ pos'.pending
  buffer : BufferStep s.pipe s'.pipe

variable {s s' : PipeShared ι α} {pos pos' : PipePos α}

omit [DecidableEq ι] in
/-- A step that sends nothing. -/
theorem Effect.silent (hsent : s'.sent = s.sent) (hpending : pos.pending = pos'.pending)
    (hbuffer : BufferStep s.pipe s'.pipe) : Effect i s s' pos pos' :=
  ⟨⟨[], hsent.trans (List.append_nil _).symm, hpending⟩, hbuffer⟩

omit [DecidableEq ι] in
theorem BufferStep.refl (p : PipeT α) : BufferStep p p := .inl ⟨.refl _, rfl⟩

/-- The test of a push. -/
theorem effect_pushTest {elems : List α}
    (h : s.callStep spurious i (.pushTest elems) = some (s', pos')) :
    Effect i s s' (.pushTest elems) pos' := by
  obtain ⟨rfl, rfl⟩ := Prod.mk.inj (Option.some.inj h)
  refine .silent rfl ?_ (.refl _)
  split
  · rfl
  · split
    · rfl
    · exact (pending_pushPlan _ _).symm

/-- The growth of the buffer. -/
theorem effect_pushGrow {elems : List α}
    (h : s.callStep spurious i (.pushGrow elems) = some (s', pos')) (hne : pos' ≠ .fault) :
    Effect i s s' (.pushGrow elems) pos' := by
  cases hgrow : s.pipe.growFor elems.length with
  | none =>
      simp only [PipeShared.callStep, hgrow] at h
      exact absurd (Prod.mk.inj (Option.some.inj h)).2.symm hne
  | some pipe =>
      simp only [PipeShared.callStep, hgrow] at h
      obtain ⟨rfl, rfl⟩ := Prod.mk.inj (Option.some.inj h)
      exact .silent rfl (pending_pushPlan _ _).symm (.inr (.inl ⟨_, hgrow⟩))

/-- A byte of a push, and its end, with which it is sent. -/
theorem effect_pushCopy {todo : List (ℕ × α)} {snap : PipeSnapshot} {now rest : List α}
    (h : s.callStep spurious i (.pushCopy todo snap now rest) = some (s', pos'))
    (hne : pos' ≠ .fault) : Effect i s s' (.pushCopy todo snap now rest) pos' := by
  cases todo with
  | nil =>
      obtain ⟨rfl, rfl⟩ := Prod.mk.inj (Option.some.inj h)
      exact ⟨⟨now, rfl, rfl⟩, .inl ⟨⟨rfl, rfl, rfl⟩, rfl⟩⟩
  | cons cell todo =>
      have heq := Option.some.inj h
      unfold PipeShared.writeCell at heq
      split at heq
      · obtain ⟨rfl, rfl⟩ := Prod.mk.inj heq
        exact .silent rfl rfl (.inl ⟨⟨rfl, rfl, rfl⟩, List.length_set⟩)
      · exact absurd (Prod.mk.inj heq).2.symm hne

/-- A byte of a pop, and its end. -/
theorem effect_popCopy {todo : List ℕ} {got : List α} {snap : PipeSnapshot} {left : ℕ}
    {eager : Bool} (h : s.callStep spurious i (.popCopy todo got snap left eager) = some (s', pos'))
    (hne : pos' ≠ .fault) : Effect i s s' (.popCopy todo got snap left eager) pos' := by
  cases todo with
  | nil =>
      obtain ⟨rfl, rfl⟩ := Prod.mk.inj (Option.some.inj h)
      refine .silent rfl ?_ (.inl ⟨⟨rfl, rfl, rfl⟩, rfl⟩)
      split
      · rfl
      · rfl
  | cons a todo =>
      have heq := Option.some.inj h
      unfold PipeShared.readCell at heq
      split at heq
      · split at heq
        · obtain ⟨rfl, rfl⟩ := Prod.mk.inj heq
          exact .silent rfl rfl (.refl _)
        · exact absurd (Prod.mk.inj heq).2.symm hne
      · exact absurd (Prod.mk.inj heq).2.symm hne

/-- The trim of the buffer. -/
theorem effect_popTrim {popped left : ℕ} {eager : Bool}
    (h : s.callStep spurious i (.popTrim popped left eager) = some (s', pos'))
    (hne : pos' ≠ .fault) : Effect i s s' (.popTrim popped left eager) pos' := by
  cases htrim : s.pipe.trim with
  | none =>
      simp only [PipeShared.callStep, htrim] at h
      exact absurd (Prod.mk.inj (Option.some.inj h)).2.symm hne
  | some pipe =>
      simp only [PipeShared.callStep, htrim] at h
      obtain ⟨rfl, rfl⟩ := Prod.mk.inj (Option.some.inj h)
      exact .silent rfl rfl (.inr (.inr htrim))

omit [DecidableEq ι] in
/-- A step that only takes a lock. -/
theorem effect_of_lock {l : Option (LockState ι)} {f : LockState ι → PipeShared ι α}
    {next : PipePos α} (h : (l.map fun l => (f l, next)) = some (s', pos'))
    (hsame : ∀ l, (f l).sent = s.sent ∧ (f l).pipe = s.pipe) (hpending : pos.pending = next.pending) :
    Effect i s s' pos pos' := by
  obtain ⟨l, -, heq⟩ := Option.map_eq_some_iff.mp h
  obtain ⟨rfl, rfl⟩ := Prod.mk.inj heq
  exact .silent (hsame l).1 hpending ((hsame l).2 ▸ .refl _)

/-- **What a step of a call does**, if it is no fault. -/
theorem callStep_effect (h : s.callStep spurious i pos = some (s', pos')) (hne : pos' ≠ .fault) :
    Effect i s s' pos pos' := by
  cases pos with
  | returned => cases h
  | fault => cases h
  | pushLock elems => exact effect_of_lock h (fun _ => ⟨rfl, rfl⟩) rfl
  | pushTest elems => exact effect_pushTest h
  | pushWait elems =>
      obtain ⟨rfl, rfl⟩ := Prod.mk.inj (Option.some.inj h)
      exact .silent rfl rfl (.refl _)
  | pushAsleep elems =>
      obtain ⟨-, hsome⟩ := Option.ite_none_right_eq_some.mp h
      obtain ⟨rfl, rfl⟩ := Prod.mk.inj (Option.some.inj hsome)
      exact .silent rfl rfl (.refl _)
  | pushGrowLock elems => exact effect_of_lock h (fun _ => ⟨rfl, rfl⟩) rfl
  | pushGrow elems => exact effect_pushGrow h hne
  | pushCopy todo snap now rest => exact effect_pushCopy h hne
  | pushSignal pushed rest =>
      obtain ⟨rfl, rfl⟩ := Prod.mk.inj (Option.some.inj h)
      refine .silent rfl ?_ (.refl _)
      split
      case isTrue hnil => exact hnil
      case isFalse => rfl
  | popLock left eager => exact effect_of_lock h (fun _ => ⟨rfl, rfl⟩) rfl
  | popTest left eager =>
      obtain ⟨rfl, rfl⟩ := Prod.mk.inj (Option.some.inj h)
      refine .silent rfl ?_ (.refl _)
      split
      · rfl
      · rfl
  | popWait left eager =>
      obtain ⟨rfl, rfl⟩ := Prod.mk.inj (Option.some.inj h)
      exact .silent rfl rfl (.refl _)
  | popAsleep left eager =>
      obtain ⟨-, hsome⟩ := Option.ite_none_right_eq_some.mp h
      obtain ⟨rfl, rfl⟩ := Prod.mk.inj (Option.some.inj hsome)
      exact .silent rfl rfl (.refl _)
  | popCopy todo got snap left eager => exact effect_popCopy h hne
  | popTrimEnd popped left eager => exact effect_of_lock h (fun _ => ⟨rfl, rfl⟩) rfl
  | popTrimBegin popped left eager => exact effect_of_lock h (fun _ => ⟨rfl, rfl⟩) rfl
  | popTrim popped left eager => exact effect_popTrim h hne
  | popSignal popped left eager =>
      obtain ⟨rfl, rfl⟩ := Prod.mk.inj (Option.some.inj h)
      refine .silent rfl ?_ (.refl _)
      split
      · rfl
      · rfl

/-- What one thread sends is sent by it alone. -/
theorem sentBy_append {sent : List (ι × α)} {now : List α} :
    ((sent ++ now.map fun x => (i, x)).filter fun x => x.1 = j).map Prod.snd =
      (sent.filter fun x => x.1 = j).map Prod.snd ++ if j = i then now else [] := by
  rw [List.filter_append, List.map_append, List.filter_map]
  split
  case isTrue heq =>
    subst heq
    simp [Function.comp_def]
  case isFalse hne =>
    simp [Function.comp_def, Ne.symm hne]

/-- **What a turn does to the buffer.** -/
theorem FifoInv.buffer_step (h : FifoInv c)
    (hstep : Interleave.step (pipeTurn spurious) c i = some c') :
    BufferStep c.shared.pipe c'.shared.pipe := by
  have hok := (h.step hstep).ok i
  obtain ⟨shared, ⟨pos', calls'⟩, hturn, rfl⟩ := step_eq_some hstep
  simp only [Function.update_self] at hok
  rcases pipeTurn_eq_some hturn with ⟨call, rest, -, rfl, -⟩ | ⟨hcall, -⟩
  · exact .inl ⟨.refl _, rfl⟩
  · refine (callStep_effect hcall fun hfault => ?_).buffer
    obtain rfl : pos' = .fault := hfault
    exact hok

/-- **A turn moves what a thread pushes**, and changes nothing of it. -/
theorem FifoInv.outgoing_step (h : FifoInv c)
    (hstep : Interleave.step (pipeTurn spurious) c i = some c') (j : ι) :
    c'.outgoing j = c.outgoing j := by
  have hok : ∀ k, (c'.thread k).pos ≠ .fault := by
    intro k heq
    have hk := (h.step hstep).ok k
    rw [heq] at hk
    exact hk
  obtain ⟨shared, ⟨pos', calls'⟩, hturn, rfl⟩ := step_eq_some hstep
  have hself := hok i
  simp only [Function.update_self] at hself
  unfold outgoing sentBy
  rcases pipeTurn_eq_some hturn with ⟨call, rest, ht, rfl, heq⟩ | ⟨hcall, hcalls⟩
  · by_cases hj : j = i
    · subst hj
      simp only [Function.update_self, ht, heq, List.flatMap_cons]
      -- what the call pushes is what it has yet to push, when it begins
      have hentry : (call.entry c.shared.pipe.elemSize).pending = call.elems := by
        cases call with
        | pipePush elems =>
            show (if elems = [] then PipePos.returned else .pushLock elems).pending = elems
            split
            case isTrue hnil => exact hnil.symm
            case isFalse => rfl
        | pipePop count =>
            show (if count * _ = 0 then PipePos.returned else .popLock _ _).pending = []
            split
            · rfl
            · rfl
        | pipePopEager count =>
            show (if count * _ = 0 then PipePos.returned else .popLock _ _).pending = []
            split
            · rfl
            · rfl
      rw [hentry]
      rfl
    · simp only [Function.update_of_ne hj]
  · obtain ⟨now, hsent, hpending⟩ := (callStep_effect hcall hself).sends
    obtain rfl : calls' = (c.thread i).calls := hcalls
    simp only [hsent, sentBy_append]
    by_cases hj : j = i
    · subst hj
      simp only [Function.update_self, if_pos, hpending, List.append_assoc]
    · simp only [Function.update_of_ne hj, if_neg hj, List.append_nil]

/-- **And so does a run.** -/
theorem FifoInv.outgoing_run (h : FifoInv c)
    (hrun : Trace.run (Interleave.step (pipeTurn spurious)) c schedule = some c') (j : ι) :
    c'.outgoing j = c.outgoing j := by
  have hkeeps : ∀ (d : PipeUsers ι α) (k : ι) (d' : PipeUsers ι α),
      (FifoInv d ∧ d.outgoing j = c.outgoing j) →
      Interleave.step (pipeTurn spurious) d k = some d' →
        (FifoInv d' ∧ d'.outgoing j = c.outgoing j) :=
    fun _ _ _ hd hstep => ⟨hd.1.step hstep, (hd.1.outgoing_step hstep j).trans hd.2⟩
  exact (run_preserves hkeeps ⟨h, rfl⟩ hrun).2

/-! ## The bytes of the copies -/

omit [DecidableEq ι] in
/-- **Nobody reads what another is writing**: the places to write are free, and those
to read are in use. -/
theorem FifoInv.toWrite_ne_toRead (h : FifoInv c) {a b : ℕ} (ha : a ∈ (c.thread i).pos.toWrite)
    (hb : b ∈ (c.thread j).pos.toRead) : a ≠ b := by
  have hwriter := h.ok i
  have hreader := h.ok j
  have hused := h.sound.bytesInUse_le
  have hlength := h.sound.length_eq
  have hpos : 0 < c.shared.pipe.elemSize := h.sound.placed.elem_pos
  cases hi : (c.thread i).pos with
  | pushCopy todo snap now rest =>
    cases hj : (c.thread j).pos with
    | popCopy todo' got snap' left eager =>
      rw [hi] at hwriter ha
      rw [hj] at hreader hb
      obtain ⟨hw, -⟩ := hwriter
      obtain ⟨hr, -⟩ := hreader
      obtain ⟨done, undone, rfl, rfl, -⟩ := hw.copied
      have hroom := hw.room
      have hread := hr.used
      rw [List.length_append] at hroom
      have hfst : ((places (c.shared.pipe.endPtr + done.length) c.shared.pipe.buffer.length
          undone.length).zip undone).map Prod.fst = places (c.shared.pipe.endPtr + done.length)
            c.shared.pipe.buffer.length undone.length :=
        List.map_fst_zip (by rw [length_places])
      have ha' : a ∈ places (c.shared.pipe.endPtr + done.length) c.shared.pipe.buffer.length
          undone.length := hfst ▸ ha
      have hb' : b ∈ places (c.shared.pipe.beginPtr + c.shared.pipe.elemSize + got.length)
          c.shared.pipe.buffer.length todo'.length := hr.todo ▸ hb
      obtain ⟨m, hm, rfl⟩ := List.mem_map.mp ha'
      obtain ⟨n, hn, rfl⟩ := List.mem_map.mp hb'
      have hm' := List.mem_range.mp hm
      have hn' := List.mem_range.mp hn
      have hend : c.shared.pipe.endPtr = (c.shared.pipe.beginPtr + c.shared.pipe.elemSize +
          c.shared.pipe.bytesInUse) % c.shared.pipe.buffer.length := h.sound.placed.end_eq
      intro heq
      rw [hend, Nat.add_assoc, Nat.mod_add_mod, Nat.add_assoc, Nat.add_assoc (_ + _)] at heq
      have hsame := mod_inj (by omega) (by omega) heq
      omega
    | _ => rw [hj] at hb; exact absurd hb List.not_mem_nil
  | _ => rw [hi] at ha; exact absurd ha List.not_mem_nil

omit [DecidableEq ι] in
/-- One thread at a time writes. -/
theorem FifoInv.writer_unique (h : FifoInv c) (hi : (c.thread i).pos.toWrite ≠ [])
    (hj : (c.thread j).pos.toWrite ≠ []) : i = j := by
  have hholds : ∀ pos : PipePos α, pos.toWrite ≠ [] → pos.HoldsEnd := by
    intro pos hpos
    cases pos with
    | pushCopy => trivial
    | _ => exact absurd rfl hpos
  exact h.endOwned.unique (hholds _ hi) (hholds _ hj)

omit [DecidableEq ι] in
/-- One thread at a time reads. -/
theorem FifoInv.reader_unique (h : FifoInv c) (hi : (c.thread i).pos.toRead ≠ [])
    (hj : (c.thread j).pos.toRead ≠ []) : i = j := by
  have hholds : ∀ pos : PipePos α, pos.toRead ≠ [] → pos.HoldsBegin := by
    intro pos hpos
    cases pos with
    | popCopy => trivial
    | _ => exact absurd rfl hpos
  exact h.beginOwned.unique (hholds _ hi) (hholds _ hj)

/-! ## Who can move -/

/-- **A thread that cannot go on** has returned, sleeps, or is in front of a lock. -/
theorem callStep_eq_none {s : PipeShared ι α} {pos : PipePos α} (hok : pos ≠ .fault)
    (h : s.callStep spurious i pos = none) :
    pos = .returned ∨ pos.Sleeps s i ∨
    (s.endLock.holder ≠ none ∧ ¬ pos.HoldsEnd ∧ ¬ pos.HoldsBegin) ∨
    (s.beginLock.holder ≠ none ∧ ¬ pos.HoldsBegin) := by
  have hacquire : ∀ l : LockState ι, l.acquire i = none → l.holder ≠ none := by
    intro l hl hfree
    rw [LockState.acquire, if_pos hfree] at hl
    cases hl
  cases pos with
  | returned => exact .inl rfl
  | fault => exact absurd rfl hok
  | pushLock elems =>
      exact .inr (.inr (.inl ⟨hacquire _ (Option.map_eq_none_iff.mp h), id, id⟩))
  | popTrimEnd popped left eager =>
      exact .inr (.inr (.inl ⟨hacquire _ (Option.map_eq_none_iff.mp h), id, id⟩))
  | pushGrowLock elems =>
      exact .inr (.inr (.inr ⟨hacquire _ (Option.map_eq_none_iff.mp h), id⟩))
  | popLock left eager =>
      exact .inr (.inr (.inr ⟨hacquire _ (Option.map_eq_none_iff.mp h), id⟩))
  | popTrimBegin popped left eager =>
      exact .inr (.inr (.inr ⟨hacquire _ (Option.map_eq_none_iff.mp h), id⟩))
  | pushAsleep elems =>
      refine .inr (.inl ?_)
      by_contra hgone
      have hwakes : spurious = true ∨ ¬ s.justPopped.Asleep i := .inr hgone
      simp only [PipeShared.callStep, if_pos hwakes] at h
      cases h
  | popAsleep left eager =>
      refine .inr (.inl ?_)
      by_contra hgone
      have hwakes : spurious = true ∨ ¬ s.justPushed.Asleep i := .inr hgone
      simp only [PipeShared.callStep, if_pos hwakes] at h
      cases h
  | pushGrow elems =>
      cases hgrow : s.pipe.growFor elems.length with
      | none =>
          simp only [PipeShared.callStep, hgrow] at h
          cases h
      | some pipe =>
          simp only [PipeShared.callStep, hgrow] at h
          cases h
  | popTrim popped left eager =>
      cases htrim : s.pipe.trim with
      | none =>
          simp only [PipeShared.callStep, htrim] at h
          cases h
      | some pipe =>
          simp only [PipeShared.callStep, htrim] at h
          cases h
  | pushCopy todo snap now rest =>
      cases todo with
      | nil => cases h
      | cons cell todo => cases h
  | popCopy todo got snap left eager =>
      cases todo with
      | nil => cases h
      | cons a todo => cases h
  | _ => cases h

/-- **The locks are not taken in a circle**: where nobody can move, each thread has
made its last call, or sleeps. -/
theorem FifoInv.asleep_of_stuck (h : FifoInv c)
    (hstuck : ∀ j, Interleave.step (pipeTurn spurious) c j = none) :
    c.thread i = ⟨.returned, []⟩ ∨ (c.thread i).pos.Sleeps c.shared i := by
  have hturn : ∀ j, pipeTurn spurious j c.shared (c.thread j) = none :=
    fun j => Option.map_eq_none_iff.mp (hstuck j)
  have hcall : ∀ j, (c.thread j).pos ≠ .returned →
      c.shared.callStep spurious j (c.thread j).pos = none := by
    intro j hne
    have hj := hturn j
    rw [pipeTurn_of_ne hne] at hj
    exact Option.map_eq_none_iff.mp hj
  have hfault : ∀ j, (c.thread j).pos ≠ .fault := by
    intro j heq
    have hok := h.ok j
    rw [heq] at hok
    exact hok
  -- the one who has `begin_lock` needs no other, and so it is free
  have hbegin : c.shared.beginLock.holder = none := by
    cases hholder : c.shared.beginLock.holder with
    | none => rfl
    | some j =>
      have hholds := (h.beginOwned.holder j).mp hholder
      have hne : (c.thread j).pos ≠ .returned := fun heq => by rw [heq] at hholds; exact hholds
      rcases callStep_eq_none (hfault j) (hcall j hne) with heq | hsleeps | ⟨-, -, hfree⟩ |
        ⟨-, hfree⟩
      · exact absurd heq hne
      · cases hpos : (c.thread j).pos with
        | pushAsleep => rw [hpos] at hholds; exact hholds.elim
        | popAsleep => rw [hpos] at hholds; exact hholds.elim
        | _ => rw [hpos] at hsleeps; exact hsleeps.elim
      · exact absurd hholds hfree
      · exact absurd hholds hfree
  -- then the one who has `end_lock` lacks nothing either
  have hend : c.shared.endLock.holder = none := by
    cases hholder : c.shared.endLock.holder with
    | none => rfl
    | some j =>
      have hholds := (h.endOwned.holder j).mp hholder
      have hne : (c.thread j).pos ≠ .returned := fun heq => by rw [heq] at hholds; exact hholds
      rcases callStep_eq_none (hfault j) (hcall j hne) with heq | hsleeps | ⟨-, hfree, -⟩ |
        ⟨hheld, -⟩
      · exact absurd heq hne
      · cases hpos : (c.thread j).pos with
        | pushAsleep => rw [hpos] at hholds; exact hholds.elim
        | popAsleep => rw [hpos] at hholds; exact hholds.elim
        | _ => rw [hpos] at hsleeps; exact hsleeps.elim
      · exact absurd hholds hfree
      · exact absurd hbegin hheld
  by_cases hpos : (c.thread i).pos = .returned
  · refine .inl ?_
    have hi := hturn i
    cases ht : c.thread i with
    | mk pos calls =>
      rw [ht] at hpos hi
      obtain rfl : pos = .returned := hpos
      cases calls with
      | nil => rfl
      | cons call rest => cases hi
  · rcases callStep_eq_none (hfault i) (hcall i hpos) with heq | hsleeps | ⟨hheld, -⟩ |
      ⟨hheld, -⟩
    · exact absurd heq hpos
    · exact .inr hsleeps
    · exact absurd hend hheld
    · exact absurd hbegin hheld

end PipeUsers

end SosFlow
