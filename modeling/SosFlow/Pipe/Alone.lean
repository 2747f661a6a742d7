import SosFlow.Pipe.Copies

/-!
# A pipe with nobody in the way

A call whose locks are free, with room for what it pushes or with something
to pop, comes to its end without waiting, and does to the contents what the
queue's operation does: `push_solo`, `pop_solo`. The buffer wraps, grows and
is trimmed, and nothing of it is seen.
-/

namespace SosFlow

open Interleave Cyclic

variable {ι α : Type} [DecidableEq ι] {s : PipeShared ι α}

section

variable (spurious : Bool) (i : ι) (calls : List (PipeCall α))

/-- A step of a call is a turn of the thread. -/
theorem solo_of_callStep {s' : PipeShared ι α} {pos pos' : PipePos α} (hne : pos ≠ .returned)
    (h : s.callStep spurious i pos = some (s', pos')) :
    Solo (pipeTurn spurious) i s ⟨pos, calls⟩ s' ⟨pos', calls⟩ :=
  .single (by rw [pipeTurn_of_ne hne, h]; rfl)

/-- A call begins. -/
theorem enter_solo (call : PipeCall α) :
    Solo (pipeTurn spurious) i s ⟨.returned, call :: calls⟩ s
      ⟨call.entry s.pipe.elemSize, calls⟩ :=
  .single rfl

/-! ## The locks -/

theorem pushLock_solo (elems : List α) (hend : s.endLock.holder = none) :
    Solo (pipeTurn spurious) i s ⟨.pushLock elems, calls⟩
      { s with endLock := { s.endLock with holder := some i } } ⟨.pushTest elems, calls⟩ := by
  refine solo_of_callStep spurious i calls (fun h => by cases h) ?_
  simp only [PipeShared.callStep, PipeShared.lockEnd, LockState.acquire_of_free hend,
    Option.map_some]

theorem popLock_solo (left : ℕ) (eager : Bool) (hbegin : s.beginLock.holder = none) :
    Solo (pipeTurn spurious) i s ⟨.popLock left eager, calls⟩
      { s with beginLock := { s.beginLock with holder := some i } }
      ⟨.popTest left eager, calls⟩ := by
  refine solo_of_callStep spurious i calls (fun h => by cases h) ?_
  simp only [PipeShared.callStep, PipeShared.lockBegin, LockState.acquire_of_free hbegin,
    Option.map_some]

/-- **A pop that finds nothing** goes to sleep. -/
theorem popAsleep_solo (left : ℕ) (eager : Bool) (hbegin : s.beginLock.holder = none)
    (hnone : s.pipe.bytesInUse = 0) :
    Solo (pipeTurn spurious) i s ⟨.popLock left eager, calls⟩
      { s with justPushed := s.justPushed.wait i } ⟨.popAsleep left eager, calls⟩ := by
  have htest : Solo (pipeTurn spurious) i
      { s with beginLock := { s.beginLock with holder := some i } } ⟨.popTest left eager, calls⟩
      { s with beginLock := { s.beginLock with holder := some i } }
      ⟨.popWait left eager, calls⟩ := by
    refine solo_of_callStep spurious i calls (fun h => by cases h) ?_
    simp only [PipeShared.callStep, if_pos hnone]
  refine (popLock_solo spurious i calls left eager hbegin).trans (htest.trans
    (solo_of_callStep spurious i calls (fun h => by cases h) ?_))
  simp only [PipeShared.callStep, LockState.release_acquired hbegin]

/-- A push that does not fit wants the other lock. -/
theorem toGrow_solo {elems : List α} (hroom : s.pipe.bytesInUse ≠ s.pipe.maxCap)
    (hfull : s.pipe.capacity < s.pipe.bytesInUse + elems.length) :
    Solo (pipeTurn spurious) i s ⟨.pushTest elems, calls⟩ s ⟨.pushGrowLock elems, calls⟩ := by
  refine solo_of_callStep spurious i calls (fun h => by cases h) ?_
  simp only [PipeShared.callStep, if_neg hroom, if_pos hfull]

/-! ## The copies -/

/-- **A push copies to the end.** -/
theorem write_solo {todo : List (ℕ × α)} {snap : PipeSnapshot} {now : List α} (rest : List α)
    (hsound : s.pipe.Sound) (hwriting : s.pipe.Writing todo snap now) :
    ∃ p', Solo (pipeTurn spurious) i s ⟨.pushCopy todo snap now rest, calls⟩
        { s with pipe := p' } ⟨.pushCopy [] snap now rest, calls⟩ ∧
      p'.Sound ∧ p'.Writing [] snap now ∧ p'.contents = s.pipe.contents ∧
      s.pipe.SameSizes p' := by
  induction todo generalizing s with
  | nil => exact ⟨s.pipe, .refl _ _, hsound, hwriting, rfl, rfl, rfl, rfl⟩
  | cons cell todo ih =>
      obtain ⟨a, x⟩ := cell
      obtain ⟨hlt, hsound', -, hwriting', hcontents⟩ := hsound.writeCell hwriting
      obtain ⟨p', hsolo, hp', hdone, hsame, hsizes⟩ :=
        ih (s := { s with pipe := { s.pipe with buffer := s.pipe.buffer.set a (some x) } })
          hsound' hwriting'
      refine ⟨p', ?_, hp', hdone, hsame.trans hcontents,
        ⟨hsizes.elemSize, hsizes.minCap, hsizes.maxCap⟩⟩
      refine (solo_of_callStep spurious i calls (fun h => by cases h) ?_).trans hsolo
      exact congrArg some (if_pos ⟨hwriting.block, hlt⟩)

/-- **A pop copies to the end.** -/
theorem read_solo {todo : List ℕ} {got queued : List α} {snap : PipeSnapshot} (left : ℕ)
    (eager : Bool) (hsound : s.pipe.Sound) (hreading : s.pipe.Reading todo got snap)
    (hqueued : s.pipe.contents = queued.map some) :
    ∃ got', Solo (pipeTurn spurious) i s ⟨.popCopy todo got snap left eager, calls⟩ s
        ⟨.popCopy [] got' snap left eager, calls⟩ ∧
      s.pipe.Reading [] got' snap ∧ got'.length = got.length + todo.length := by
  induction todo generalizing got with
  | nil => exact ⟨got, .refl _ _, hreading, rfl⟩
  | cons a todo ih =>
      obtain ⟨x, hcell, hreading'⟩ := hreading.readCell hsound hqueued
      obtain ⟨got', hsolo, hdone, hlength⟩ := ih hreading'
      refine ⟨got', ?_, hdone, ?_⟩
      · refine (solo_of_callStep spurious i calls (fun h => by cases h) ?_).trans hsolo
        simp only [PipeShared.callStep, PipeShared.readCell, hcell, if_pos hreading.block]
      · rw [hlength, List.length_append, List.length_singleton, List.length_cons]
        omega

/-- **A push in mid-copy**: it has found its room, and copied the first byte. -/
theorem pushCopy_solo {elems : List α} (hsound : s.pipe.Sound) (hend : s.endLock.holder = none)
    (hne : elems ≠ []) (hdvd : s.pipe.elemSize ∣ elems.length)
    (hroom : s.pipe.bytesInUse + elems.length ≤ s.pipe.capacity) :
    ∃ p' todo snap, Solo (pipeTurn spurious) i s ⟨.pushLock elems, calls⟩
        { s with pipe := p', endLock := { s.endLock with holder := some i } }
        ⟨.pushCopy todo snap elems [], calls⟩ ∧
      todo.length + 1 = elems.length ∧ p'.Sound ∧ p'.contents = s.pipe.contents ∧
      s.pipe.SameSizes p' := by
  have hlength : 0 < elems.length := List.length_pos_of_ne_nil hne
  have hmaxle := hsound.capacity_le
  have hall : elems.length = min elems.length (s.pipe.maxCap - s.pipe.bytesInUse) := by omega
  have htest : Solo (pipeTurn spurious) i
      { s with endLock := { s.endLock with holder := some i } } ⟨.pushTest elems, calls⟩
      { s with endLock := { s.endLock with holder := some i } } ⟨s.pipe.pushPlan elems, calls⟩ := by
    refine solo_of_callStep spurious i calls (fun h => by cases h) ?_
    simp only [PipeShared.callStep, if_neg (by omega : s.pipe.bytesInUse ≠ s.pipe.maxCap),
      if_neg (Nat.not_lt.mpr hroom)]
  have hok := hsound.pushPlan_ok hdvd (by omega)
  rw [PipeT.pushPlan_eq hall, List.take_length, List.drop_length] at hok htest
  have hcells : (s.pipe.makeSnapshot.processPush elems).1.length = elems.length := by
    rw [hsound.placed.processPush_eq hroom, List.length_zip, length_places, Nat.min_self]
  obtain ⟨todo, snap, hplan⟩ : ∃ todo snap, todo.length = elems.length ∧
      s.pipe.Writing todo snap elems ∧ Solo (pipeTurn spurious) i
        { s with endLock := { s.endLock with holder := some i } } ⟨.pushTest elems, calls⟩
        { s with endLock := { s.endLock with holder := some i } }
        ⟨.pushCopy todo snap elems [], calls⟩ := ⟨_, _, hcells, hok.1, htest⟩
  obtain ⟨hcount, hwriting, htest⟩ := hplan
  cases todo with
  | nil => exact absurd hcount.symm hlength.ne'
  | cons cell todo =>
      obtain ⟨a, x⟩ := cell
      obtain ⟨hlt, hsound', -, -, hcontents⟩ := hsound.writeCell hwriting
      have hcell : PipeShared.callStep spurious i
          { s with endLock := { s.endLock with holder := some i } }
          (.pushCopy ((a, x) :: todo) snap elems []) =
          some ({ s with
            pipe := { s.pipe with buffer := s.pipe.buffer.set a (some x) }
            endLock := { s.endLock with holder := some i } }, .pushCopy todo snap elems []) :=
        congrArg some (if_pos ⟨hwriting.block, hlt⟩)
      exact ⟨_, todo, snap, (pushLock_solo spurious i calls elems hend).trans (htest.trans
        (solo_of_callStep spurious i calls (fun h => by cases h) hcell)), hcount, hsound',
        hcontents, ⟨rfl, rfl, rfl⟩⟩

/-- **A pop in mid-copy**: it has found something, and copied the first byte. -/
theorem popCopy_solo {queued : List α} {left : ℕ} (eager : Bool) (hsound : s.pipe.Sound)
    (hbegin : s.beginLock.holder = none) (hqueued : s.pipe.contents = queued.map some)
    (hdvd : s.pipe.elemSize ∣ left) (hpos : 0 < left) (hle : left ≤ queued.length) :
    ∃ todo got snap, Solo (pipeTurn spurious) i s ⟨.popLock left eager, calls⟩
        { s with beginLock := { s.beginLock with holder := some i } }
        ⟨.popCopy todo got snap left eager, calls⟩ ∧ todo.length + 1 = left := by
  have hused : s.pipe.bytesInUse = queued.length := by
    rw [← hsound.length_contents, hqueued, List.length_map]
  have hall : left = min left s.pipe.bytesInUse := by omega
  have htest : Solo (pipeTurn spurious) i
      { s with beginLock := { s.beginLock with holder := some i } } ⟨.popTest left eager, calls⟩
      { s with beginLock := { s.beginLock with holder := some i } }
      ⟨s.pipe.popPlan left eager, calls⟩ := by
    refine solo_of_callStep spurious i calls (fun h => by cases h) ?_
    simp only [PipeShared.callStep, if_neg (by omega : s.pipe.bytesInUse ≠ 0)]
  have hok : (s.pipe.popPlan left eager).Ok s.pipe := hsound.popPlan_ok hdvd
  rw [PipeT.popPlan_eq hall] at hok htest
  have hcells : (s.pipe.makeSnapshot.popWithoutLocking left).1.length = left := by
    rw [hsound.placed.popWithoutLocking_eq hdvd (hle.trans_eq hused.symm), length_places]
  obtain ⟨todo, snap, hplan⟩ : ∃ todo snap, todo.length = left ∧ s.pipe.Reading todo [] snap ∧
      Solo (pipeTurn spurious) i { s with beginLock := { s.beginLock with holder := some i } }
        ⟨.popTest left eager, calls⟩ { s with beginLock := { s.beginLock with holder := some i } }
        ⟨.popCopy todo [] snap left eager, calls⟩ := ⟨_, _, hcells, hok.1, htest⟩
  obtain ⟨hcount, hreading, htest⟩ := hplan
  cases todo with
  | nil => exact absurd hcount.symm hpos.ne'
  | cons a todo =>
      obtain ⟨x, hcell, -⟩ := hreading.readCell hsound hqueued
      have hread : PipeShared.callStep spurious i
          { s with beginLock := { s.beginLock with holder := some i } }
          (.popCopy (a :: todo) [] snap left eager) =
          some ({ s with beginLock := { s.beginLock with holder := some i } },
            .popCopy todo [x] snap left eager) := by
        simp only [PipeShared.callStep, PipeShared.readCell, hcell, if_pos hreading.block,
          List.nil_append]
      exact ⟨todo, [x], snap, (popLock_solo spurious i calls left eager hbegin).trans (htest.trans
        (solo_of_callStep spurious i calls (fun h => by cases h) hread)), hcount⟩

/-! ## The calls -/

/-- A push that has its room is copied, and done. -/
theorem copy_solo {elems : List α} (hsound : s.pipe.Sound)
    (hdvd : s.pipe.elemSize ∣ elems.length)
    (hroom : s.pipe.bytesInUse + elems.length ≤ s.pipe.capacity) :
    ∃ p', Solo (pipeTurn spurious) i s ⟨s.pipe.pushPlan elems, calls⟩
        { s with
          pipe := p'
          endLock := s.endLock.release i
          justPushed := p'.notify elems.length s.justPushed
          sent := s.sent ++ elems.map fun x => (i, x) } ⟨.returned, calls⟩ ∧
      p'.Sound ∧ p'.contents = s.pipe.contents ++ elems.map some ∧ s.pipe.SameSizes p' := by
  have hmaxle := hsound.capacity_le
  have hall : elems.length = min elems.length (s.pipe.maxCap - s.pipe.bytesInUse) := by omega
  have hok := hsound.pushPlan_ok hdvd (by omega)
  rw [PipeT.pushPlan_eq hall, List.take_length, List.drop_length] at hok ⊢
  obtain ⟨p₁, hcopied, hsound₁, hdone, hsame₁, hsizes₁⟩ :=
    write_solo spurious i calls [] hsound hok.1
  obtain ⟨hsound₂, -, hcontents⟩ := hsound₁.publishEnd hdone
  refine ⟨_, hcopied.trans (.head (pipeTurn_of_ne fun h => by cases h) ?_), hsound₂, ?_,
    hsizes₁.trans ⟨rfl, rfl, rfl⟩⟩
  · exact solo_of_callStep spurious i calls (fun h => by cases h) rfl
  · rw [hcontents, hsame₁]

/-- The growth of the buffer, under both locks. -/
theorem grow_solo {elems : List α} {p' : PipeT α} (hbegin : s.beginLock.holder = none)
    (hgrow : s.pipe.growFor elems.length = some p') :
    Solo (pipeTurn spurious) i s ⟨.pushGrowLock elems, calls⟩ { s with pipe := p' }
      ⟨p'.pushPlan elems, calls⟩ := by
  have hlock : Solo (pipeTurn spurious) i s ⟨.pushGrowLock elems, calls⟩
      { s with beginLock := { s.beginLock with holder := some i } } ⟨.pushGrow elems, calls⟩ := by
    refine solo_of_callStep spurious i calls (fun h => by cases h) ?_
    simp only [PipeShared.callStep, PipeShared.lockBegin, LockState.acquire_of_free hbegin,
      Option.map_some]
  refine hlock.trans (solo_of_callStep spurious i calls (fun h => by cases h) ?_)
  simp only [PipeShared.callStep, hgrow, LockState.release_acquired hbegin]

/-- The trim of the buffer, under both locks. -/
theorem trim_solo (popped left : ℕ) (eager : Bool) {p' : PipeT α} (hend : s.endLock.holder = none)
    (hbegin : s.beginLock.holder = none) (htrim : s.pipe.trim = some p') :
    Solo (pipeTurn spurious) i s ⟨.popTrimEnd popped left eager, calls⟩ { s with pipe := p' }
      ⟨.popSignal popped left eager, calls⟩ := by
  have hlock : Solo (pipeTurn spurious) i s ⟨.popTrimEnd popped left eager, calls⟩
      { s with endLock := { s.endLock with holder := some i } }
      ⟨.popTrimBegin popped left eager, calls⟩ := by
    refine solo_of_callStep spurious i calls (fun h => by cases h) ?_
    simp only [PipeShared.callStep, PipeShared.lockEnd, LockState.acquire_of_free hend,
      Option.map_some]
  have hboth : Solo (pipeTurn spurious) i
      { s with endLock := { s.endLock with holder := some i } }
      ⟨.popTrimBegin popped left eager, calls⟩
      { s with
        endLock := { s.endLock with holder := some i }
        beginLock := { s.beginLock with holder := some i } } ⟨.popTrim popped left eager, calls⟩ := by
    refine solo_of_callStep spurious i calls (fun h => by cases h) ?_
    simp only [PipeShared.callStep, PipeShared.lockBegin, LockState.acquire_of_free hbegin,
      Option.map_some]
  refine hlock.trans (hboth.trans (solo_of_callStep spurious i calls (fun h => by cases h) ?_))
  simp only [PipeShared.callStep, htrim, LockState.release_acquired hbegin,
    LockState.release_acquired hend]

/-- **A push that finds its room** is done in turns of its own, and what it pushes is
behind what there was. -/
theorem push_solo (elems : List α) (hsound : s.pipe.Sound) (hend : s.endLock.holder = none)
    (hbegin : s.beginLock.holder = none ∨
      s.pipe.bytesInUse + elems.length ≤ s.pipe.capacity)
    (hdvd : s.pipe.elemSize ∣ elems.length) (hne : elems ≠ [])
    (hroom : s.pipe.bytesInUse + elems.length ≤ s.pipe.maxCap) :
    ∃ p', Solo (pipeTurn spurious) i s ⟨.pushLock elems, calls⟩
        { s with
          pipe := p'
          justPushed := p'.notify elems.length s.justPushed
          sent := s.sent ++ elems.map fun x => (i, x) } ⟨.returned, calls⟩ ∧
      p'.Sound ∧ p'.contents = s.pipe.contents ++ elems.map some ∧ s.pipe.SameSizes p' := by
  have hlength : 0 < elems.length := List.length_pos_of_ne_nil hne
  have hfree : s.pipe.bytesInUse ≠ s.pipe.maxCap := by omega
  have hlock := pushLock_solo spurious i calls elems hend
  by_cases hfits : s.pipe.bytesInUse + elems.length ≤ s.pipe.capacity
  · obtain ⟨p', hsolo, hsound', hcontents, hsizes⟩ := copy_solo spurious i calls
      (s := { s with endLock := { s.endLock with holder := some i } }) hsound hdvd hfits
    simp only [LockState.release_acquired hend] at hsolo
    refine ⟨p', hlock.trans (.trans (solo_of_callStep spurious i calls (fun h => by cases h) ?_)
      hsolo), hsound', hcontents, ⟨hsizes.elemSize, hsizes.minCap, hsizes.maxCap⟩⟩
    simp only [PipeShared.callStep, if_neg hfree, if_neg (Nat.not_lt.mpr hfits)]
  -- the buffer grows first, under both locks
  · have hbegin : s.beginLock.holder = none := hbegin.resolve_right hfits
    obtain ⟨p₁, hp₁, hsound₁, hsame, hlarge⟩ := hsound.growFor_spec hdvd (by omega)
    rw [Nat.min_eq_left hroom, ← hsame.bytesInUse] at hlarge
    obtain ⟨p', hsolo, hsound', hcontents, hsizes⟩ := copy_solo spurious i calls
      (s := { s with pipe := p₁, endLock := { s.endLock with holder := some i } })
      hsound₁ ((dvd_of_eq hsame.elemSize).trans hdvd) hlarge
    simp only [LockState.release_acquired hend] at hsolo
    have htest := toGrow_solo spurious i calls
      (s := { s with endLock := { s.endLock with holder := some i } }) hfree
      (Nat.lt_of_not_le hfits)
    have hgrow := grow_solo spurious i calls
      (s := { s with endLock := { s.endLock with holder := some i } }) hbegin hp₁
    refine ⟨p', hlock.trans (htest.trans (hgrow.trans hsolo)), hsound', ?_,
      hsame.sizes.trans ⟨hsizes.elemSize, hsizes.minCap, hsizes.maxCap⟩⟩
    rw [hcontents, ← hsame.contents]

/-- **A pop that finds something** is done in turns of its own, and what it pops is
the front of what there was. -/
theorem pop_solo {queued : List α} (left : ℕ) (eager : Bool) (hsound : s.pipe.Sound)
    (hend : s.endLock.holder = none) (hbegin : s.beginLock.holder = none)
    (hqueued : s.pipe.contents = queued.map some) (hne : queued ≠ [])
    (hdvd : s.pipe.elemSize ∣ left) :
    ∃ p', Solo (pipeTurn spurious) i s ⟨.popLock left eager, calls⟩
        { s with
          pipe := p'
          justPopped := p'.notify (queued.take left).length s.justPopped
          received := s.received ++ queued.take left }
        ⟨if eager = true ∨ left - queued.length = 0 then .returned
          else .popLock (left - queued.length) eager, calls⟩ ∧
      p'.Sound ∧ p'.contents = (queued.drop left).map some ∧ s.pipe.SameSizes p' := by
  have hused : s.pipe.bytesInUse = queued.length := by
    rw [← hsound.length_contents, hqueued, List.length_map]
  have hlength := List.length_pos_of_ne_nil hne
  have hlock := popLock_solo spurious i calls left eager hbegin
  have htest : Solo (pipeTurn spurious) i
      { s with beginLock := { s.beginLock with holder := some i } } ⟨.popTest left eager, calls⟩
      { s with beginLock := { s.beginLock with holder := some i } }
      ⟨s.pipe.popPlan left eager, calls⟩ := by
    refine solo_of_callStep spurious i calls (fun h => by cases h) ?_
    simp only [PipeShared.callStep, if_neg (by omega : s.pipe.bytesInUse ≠ 0)]
  have hok : (s.pipe.popPlan left eager).Ok s.pipe := hsound.popPlan_ok hdvd
  obtain ⟨n, hn⟩ : ∃ n, n = min left s.pipe.bytesInUse := ⟨_, rfl⟩
  rw [PipeT.popPlan_eq hn] at hok htest
  obtain ⟨got, hcopied, hdone, hgot⟩ := read_solo spurious i calls
    (s := { s with beginLock := { s.beginLock with holder := some i } }) left eager hsound
    hok.1 hqueued
  obtain ⟨hsound₁, -, hcontents⟩ := hsound.publishBegin hdone
  -- what was popped is as many of the bytes as were wanted, if there were so many
  have hpopped : s.pipe.elemSize ∣ n :=
    hn ▸ PipeT.dvd_min_of_dvd hdvd hsound.placed.dvd_bytesInUse
  have hcount : got.length = n := by
    rw [hgot, hsound.placed.popWithoutLocking_eq hpopped (hn ▸ Nat.min_le_right _ _), length_places]
    exact Nat.zero_add n
  obtain ⟨front, rest, rfl, hfront, hrest⟩ :=
    List.map_eq_append_iff.mp (hqueued.symm.trans hcontents)
  obtain rfl := (List.map_inj_right fun _ _ => Option.some.inj).mp hfront
  rw [List.length_append] at hused
  obtain ⟨htake, hdrop⟩ : (front ++ rest).take left = front ∧ (front ++ rest).drop left = rest := by
    rcases Nat.le_total left (front.length + rest.length) with hle | hle
    · have hall : front.length = left := by omega
      exact ⟨List.take_left' hall, List.drop_left' hall⟩
    · have hnil : rest = [] := List.eq_nil_of_length_eq_zero (by omega)
      subst hnil
      rw [List.append_nil]
      exact ⟨List.take_of_length_le (by omega), List.drop_eq_nil_of_le (by omega)⟩
  have hleft : left - (front ++ rest).length = left - front.length := by
    rw [List.length_append]
    omega
  rw [htake, hdrop, hleft]
  have hsignal : ∀ t : PipeShared ι α, Solo (pipeTurn spurious) i t
      ⟨.popSignal front.length (left - front.length) eager, calls⟩
      { t with justPopped := t.pipe.notify front.length t.justPopped }
      ⟨if eager = true ∨ left - front.length = 0 then .returned
        else .popLock (left - front.length) eager, calls⟩ :=
    fun t => solo_of_callStep spurious i calls (fun h => by cases h) rfl
  have hpublish := solo_of_callStep spurious i calls
    (s := { s with beginLock := { s.beginLock with holder := some i } })
    (fun h : PipePos.popCopy [] front { s.pipe.makeSnapshot with
      beginPtr := (s.pipe.makeSnapshot.popWithoutLocking n).2 } left eager = .returned =>
        by cases h) rfl
  simp only [PipeShared.publishBegin, LockState.release_acquired hbegin] at hpublish
  have hbefore := hlock.trans (htest.trans (hcopied.trans hpublish))
  split at hbefore
  case isTrue =>
    exact ⟨_, hbefore.trans (hsignal _), hsound₁, hrest.symm, rfl, rfl, rfl⟩
  case isFalse =>
    obtain ⟨p', hp', hsound', hsame⟩ := hsound₁.trim_spec
    have htrim := trim_solo spurious i calls front.length (left - front.length) eager
      (s := { s with
        pipe := { s.pipe with beginPtr := (s.pipe.makeSnapshot.popWithoutLocking n).2 }
        received := s.received ++ front }) hend hbegin hp'
    refine ⟨p', hbefore.trans (htrim.trans (hsignal _)), hsound', ?_,
      ⟨hsame.elemSize, hsame.minCap, hsame.maxCap⟩⟩
    rw [hsame.contents, hrest]

end

end SosFlow
