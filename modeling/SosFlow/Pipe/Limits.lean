import SosFlow.Pipe.Alone
import SosFlow.Pipe.Order

/-!
# What the constants of a pipe do

`DEFAULT_MINCAP` must be no power of two: then, and only then, a pipe is a
queue in every run (`isQueue_iff`). The ten million of the release build are
none; the two of the debug build are one, and there a push of two elements
leaves an empty pipe.

With the ten million, a limit below 2²⁴ is of no account. Every pipe of the
daemon is made with the limit 0, which is to say none, and holds 2²⁴
elements at the most, and any number up to that (`reachable_count_iff`).
The buffer grows once, to that size, and then fails the last assertion of
`check_invariants`; and it is never trimmed: `default_sizes`.
-/

namespace SosFlow

open Interleave Trace Cyclic

variable {ι α : Type}

namespace PipeUsers

/-- **The pipe is a queue**: no turn went wrong, and what was popped, and behind it what
is in use, is what was pushed. -/
def IsQueue (c : PipeUsers ι α) : Prop :=
  (∀ i, (c.thread i).pos ≠ .fault) ∧
    ∃ queued, c.shared.pipe.contents = queued.map some ∧
      c.shared.received ++ queued = c.shared.sent.map Prod.snd

theorem FifoInv.isQueue {c : PipeUsers ι α} (h : FifoInv c) : c.IsQueue := by
  refine ⟨fun i heq => ?_, h.fifo⟩
  have hok := h.ok i
  rw [heq] at hok
  exact hok

end PipeUsers

/-! ## A power of two -/

section

variable [DecidableEq ι] {s : PipeShared ι α}

/-- Bytes inside the buffer are written, whatever they overwrite. -/
theorem cells_solo (spurious : Bool) (i : ι) (calls : List (PipeCall α)) {todo : List (ℕ × α)}
    {snap : PipeSnapshot} (now rest : List α) (hblock : snap.block = s.pipe.block)
    (hlt : ∀ cell ∈ todo, cell.1 < s.pipe.buffer.length) :
    ∃ buffer, buffer.length = s.pipe.buffer.length ∧
      Solo (pipeTurn spurious) i s ⟨.pushCopy todo snap now rest, calls⟩
        { s with pipe := { s.pipe with buffer } } ⟨.pushCopy [] snap now rest, calls⟩ := by
  induction todo generalizing s with
  | nil => exact ⟨s.pipe.buffer, rfl, .refl _ _⟩
  | cons cell todo ih =>
      obtain ⟨a, x⟩ := cell
      obtain ⟨buffer, hlength, hsolo⟩ :=
        ih (s := { s with pipe := { s.pipe with buffer := s.pipe.buffer.set a (some x) } }) hblock
          fun cell hcell => by
            rw [List.length_set]
            exact hlt cell (List.mem_cons_of_mem _ hcell)
      refine ⟨buffer, hlength.trans List.length_set, ?_⟩
      refine (solo_of_callStep spurious i calls (fun h => by cases h) ?_).trans hsolo
      exact congrArg some (if_pos ⟨hblock, hlt _ List.mem_cons_self⟩)

end

/-- `next_pow2` leaves a power of two as it is. -/
theorem nextPow2_two_pow {j : ℕ} (h : 2 ^ j ≤ 2 ^ 63) : nextPow2 (2 ^ j) = 2 ^ j := by
  obtain ⟨m, hm, hle, hlt⟩ := nextPow2_spec (Nat.two_pow_pos j) h
  rw [← pow_succ'] at hlt
  have h1 := (Nat.pow_lt_pow_iff_right (by norm_num)).mp hlt
  have h2 := (Nat.pow_le_pow_iff_right (by norm_num)).mp hle
  rw [hm, show m = j by omega]

namespace PipeT

variable {p : PipeT α} {j k limit : ℕ} {elems : List α}

/-- A new pipe, for a `DEFAULT_MINCAP` that is a power of two. -/
theorem pipeNew_two_pow (hp : pipeNew α (2 ^ j) (2 ^ k) limit = some p)
    (hlimit : (limit + 1) * 2 ^ k ≤ 2 ^ 63) :
    p.elemSize = 2 ^ k ∧ p.minCap = 2 ^ j * 2 ^ k ∧ 2 ^ j * 2 ^ k ≤ p.maxCap ∧
      p.buffer.length = 2 ^ j * 2 ^ k ∧ p.beginPtr = 0 ∧ p.endPtr = 2 ^ k := by
  have hlimitpos : 0 < (limit + 1) * 2 ^ k := Nat.mul_pos (Nat.succ_pos _) (Nat.two_pow_pos k)
  have hmod : (limit + 1) * 2 ^ k % 2 ^ 64 = (limit + 1) * 2 ^ k :=
    Nat.mod_eq_of_lt (by omega)
  simp only [pipeNew, hmod] at hp
  rw [if_neg (Nat.two_pow_pos k).ne', if_pos hlimitpos.ne'] at hp
  obtain rfl := Option.some.inj hp
  refine ⟨rfl, rfl, ?_, List.length_replicate, rfl, rfl⟩
  exact (Nat.le_max_right _ _).trans (le_nextPow2 (by omega))

/-- **A push of `DEFAULT_MINCAP` elements**, when that is a power of two: the buffer stays
as it is, though it has no room for the last of them, and `end` comes to stand behind
the sentinel again. -/
theorem pushPlan_two_pow (hp : pipeNew α (2 ^ j) (2 ^ k) limit = some p)
    (hcap : 2 ^ j * 2 ^ k ≤ 2 ^ 63) (hlimit : (limit + 1) * 2 ^ k ≤ 2 ^ 63)
    (helems : elems.length = 2 ^ j * 2 ^ k) :
    p.bytesInUse = 0 ∧ p.capacity < elems.length ∧ p.growFor elems.length = some p ∧
      ∃ todo e, p.pushPlan elems = .pushCopy todo { p.makeSnapshot with endPtr := e } elems [] ∧
        (∀ cell ∈ todo, cell.1 < p.buffer.length) ∧
        ∀ buffer : List (Option α), buffer.length = p.buffer.length →
          bytesInUse { p with buffer := buffer, endPtr := e } = 0 := by
  obtain ⟨helem, hmin, hmax, hlength, hbegin, hend⟩ := pipeNew_two_pow hp hlimit
  have hpow : 0 < 2 ^ k := Nat.two_pow_pos k
  have hwide : 2 ^ k ≤ 2 ^ j * 2 ^ k := Nat.le_mul_of_pos_left _ (Nat.two_pow_pos j)
  have hj : 2 ^ j ≤ 2 ^ j * 2 ^ k := Nat.le_mul_of_pos_right _ hpow
  have hnowrap : ¬ p.makeSnapshot.WrapsAround := by
    show ¬ p.endPtr ≤ p.beginPtr
    omega
  have hused : p.bytesInUse = 0 := by
    show p.makeSnapshot.bytesInUse = 0
    rw [PipeSnapshot.bytesInUse, if_neg hnowrap]
    show p.endPtr - p.beginPtr - p.elemSize = 0
    omega
  have hcapacity : p.capacity = 2 ^ j * 2 ^ k - 2 ^ k := by
    show p.buffer.length - p.elemSize = _
    omega
  refine ⟨hused, by omega, ?_, ?_⟩
  · rw [growFor, if_pos (by omega), hused, helems, helem, Nat.zero_add,
      Nat.mul_div_cancel _ hpow, nextPow2_two_pow (by omega)]
    simp only [resizeBuffer]
    rw [if_pos]
    split <;> omega
  · have hall : elems.length = min elems.length (p.maxCap - p.bytesInUse) := by omega
    have hplan := pushPlan_eq hall
    rw [List.take_length, List.drop_length] at hplan
    have hrest : elems.drop (2 ^ j * 2 ^ k - 2 ^ k) ≠ [] := by
      rw [Ne, List.drop_eq_nil_iff]
      omega
    -- up to the end of the buffer, and then over the sentinel
    have hpush : p.makeSnapshot.processPush elems =
        (PipeSnapshot.memcpyTo (2 ^ k) (elems.take (2 ^ j * 2 ^ k - 2 ^ k)) ++
          PipeSnapshot.memcpyTo 0 (elems.drop (2 ^ j * 2 ^ k - 2 ^ k)),
          wrapPtrIfNecessary (2 ^ k) (2 ^ j * 2 ^ k)) := by
      have hroom : min elems.length (p.makeSnapshot.bufend - p.makeSnapshot.endPtr) =
          2 ^ j * 2 ^ k - 2 ^ k := by
        show min elems.length (p.buffer.length - p.endPtr) = _
        omega
      have hdest : wrapPtrIfNecessary (p.makeSnapshot.endPtr + (2 ^ j * 2 ^ k - 2 ^ k))
          p.makeSnapshot.bufend = 0 := by
        show wrapPtrIfNecessary (p.endPtr + _) p.buffer.length = 0
        rw [hend, hlength, Nat.add_sub_cancel' hwide, wrapPtrIfNecessary, if_pos le_rfl,
          Nat.sub_self]
      have hcount : (elems.drop (2 ^ j * 2 ^ k - 2 ^ k)).length = 2 ^ k := by
        rw [List.length_drop]
        omega
      simp only [PipeSnapshot.processPush, if_neg hnowrap, hroom, if_neg hrest, hdest, hcount,
        Nat.zero_add]
      rw [show p.makeSnapshot.endPtr = 2 ^ k from hend,
        show p.makeSnapshot.bufend = 2 ^ j * 2 ^ k from hlength]
    rw [hpush] at hplan
    refine ⟨_, _, hplan, ?_, ?_⟩
    · have hplaces : ∀ dest (xs : List α), dest + xs.length ≤ p.buffer.length →
          ∀ cell ∈ PipeSnapshot.memcpyTo dest xs, cell.1 < p.buffer.length := by
        rintro dest xs hle ⟨a, x⟩ hcell
        have hmem := (List.of_mem_zip hcell).1
        rw [List.mem_range'_1] at hmem
        show a < p.buffer.length
        omega
      intro cell hcell
      rcases List.mem_append.mp hcell with hfront | hback
      · exact hplaces _ _ (by rw [List.length_take]; omega) cell hfront
      · exact hplaces _ _ (by rw [List.length_drop]; omega) cell hback
    · intro buffer hbuffer
      show PipeSnapshot.bytesInUse ⟨p.block, buffer.length, p.beginPtr, _, p.elemSize⟩ = 0
      simp only [PipeSnapshot.bytesInUse, PipeSnapshot.WrapsAround, wrapPtrIfNecessary, hbuffer,
        hlength, hbegin, helem]
      split <;> split <;> omega

end PipeT

namespace PipeUsers

variable [DecidableEq ι] {mincap k limit : ℕ}

/-- **A run that loses what was pushed**, when `DEFAULT_MINCAP` is a power of two. -/
theorem exists_not_isQueue [Inhabited ι] [Inhabited α] {j : ℕ}
    (hcap : 2 ^ j * 2 ^ k ≤ 2 ^ 63) (hlimit : (limit + 1) * 2 ^ k ≤ 2 ^ 63) {p : PipeT α}
    (hp : PipeT.pipeNew α (2 ^ j) (2 ^ k) limit = some p) :
    ∃ calls : ι → List (PipeCall α), (∀ i, ∀ call ∈ calls i, call.Whole p.elemSize) ∧
      ∃ schedule c, run (step (pipeTurn false)) (start p calls) schedule = some c ∧
        ¬ IsQueue c := by
  obtain ⟨elems, helems⟩ : ∃ elems : List α, elems.length = 2 ^ j * 2 ^ k :=
    ⟨List.replicate _ default, List.length_replicate⟩
  have hpos : 0 < elems.length := helems ▸ Nat.mul_pos (Nat.two_pow_pos j) (Nat.two_pow_pos k)
  have hne : elems ≠ [] := List.ne_nil_of_length_pos hpos
  have helem := (PipeT.pipeNew_two_pow hp hlimit).1
  have hmax := (PipeT.pipeNew_two_pow hp hlimit).2.2.1
  obtain ⟨hused, hfull, hgrow, todo, e, hplan, hcells, hempty⟩ :=
    PipeT.pushPlan_two_pow hp hcap hlimit helems
  let calls : ι → List (PipeCall α) := fun _ => [.pipePush elems]
  let s₀ : PipeShared ι α := (start p calls).shared
  let s₁ : PipeShared ι α := { s₀ with endLock := ⟨some default, false⟩ }
  have henter : Solo (pipeTurn false) default s₀ ⟨.returned, [.pipePush elems]⟩ s₀
      ⟨if elems = [] then .returned else .pushLock elems, []⟩ := enter_solo false default [] _
  rw [if_neg hne] at henter
  have hlock : Solo (pipeTurn false) default s₀ ⟨.pushLock elems, []⟩ s₁ ⟨.pushTest elems, []⟩ :=
    pushLock_solo false default [] elems rfl
  have htest : Solo (pipeTurn false) default s₁ ⟨.pushTest elems, []⟩ s₁
      ⟨.pushGrowLock elems, []⟩ := by
    refine toGrow_solo false default [] ?_ ?_
    · show p.bytesInUse ≠ p.maxCap
      omega
    · show p.capacity < p.bytesInUse + elems.length
      omega
  have hgrown : Solo (pipeTurn false) default s₁ ⟨.pushGrowLock elems, []⟩ s₁
      ⟨p.pushPlan elems, []⟩ := grow_solo false default [] rfl hgrow
  rw [hplan] at hgrown
  have hblock : PipeSnapshot.block { p.makeSnapshot with endPtr := e } = s₁.pipe.block := rfl
  obtain ⟨buffer, hbuffer, hcopied⟩ := cells_solo false default [] elems [] hblock hcells
  have hpublish : Solo (pipeTurn false) default { s₁ with pipe := { p with buffer := buffer } }
      ⟨.pushCopy [] { p.makeSnapshot with endPtr := e } elems [], []⟩
      { s₁ with
        pipe := { p with buffer := buffer, endPtr := e }
        endLock := s₁.endLock.release default
        justPushed := PipeT.notify { p with buffer := buffer, endPtr := e } elems.length .idle
        sent := elems.map fun x => (default, x) } ⟨.returned, []⟩ := by
    refine (solo_of_callStep false default [] (fun h => by cases h) rfl).trans
      (solo_of_callStep false default [] (fun h => by cases h) ?_)
    rfl
  obtain ⟨n, hrun⟩ := (henter.trans (hlock.trans (htest.trans (hgrown.trans
    (hcopied.trans hpublish))))).run (f := fun _ => ⟨.returned, [.pipePush elems]⟩) rfl
  refine ⟨calls, ?_, _, _, hrun, ?_⟩
  · intro i call hcall
    obtain rfl := List.mem_singleton.mp hcall
    show p.elemSize ∣ elems.length
    rw [helem, helems]
    exact Nat.dvd_mul_left _ _
  · rintro ⟨-, queued, hqueued, hsent⟩
    have hnothing : PipeT.contents { p with buffer := buffer, endPtr := e } = [] := by
      rw [PipeT.contents, hempty buffer hbuffer, window_zero]
    obtain rfl := List.map_eq_nil_iff.mp (hqueued.symm.trans hnothing)
    have hnone : ([] : List α) = (elems.map fun x => ((default : ι), x)).map Prod.snd := hsent
    have hlength := congrArg List.length hnone
    rw [List.length_nil, List.length_map, List.length_map] at hlength
    omega

/-- **A pipe is a queue in every run exactly when `DEFAULT_MINCAP` is no power of two.** -/
theorem isQueue_iff [Inhabited ι] [Inhabited α] (hmincap : 0 < mincap)
    (hcap : mincap * 2 ^ k ≤ 2 ^ 63) (hlimit : (limit + 1) * 2 ^ k ≤ 2 ^ 63) {p : PipeT α}
    (hp : PipeT.pipeNew α mincap (2 ^ k) limit = some p) :
    (∀ (spurious : Bool) (calls : ι → List (PipeCall α)),
      (∀ i, ∀ call ∈ calls i, call.Whole p.elemSize) →
        ∀ schedule c, run (step (pipeTurn spurious)) (start p calls) schedule = some c →
          IsQueue c) ↔ ∀ j, mincap ≠ 2 ^ j := by
  constructor
  · rintro hall j rfl
    obtain ⟨calls, hcalls, schedule, c, hrun, hnot⟩ := exists_not_isQueue (ι := ι) hcap hlimit hp
    exact hnot (hall false calls hcalls schedule c hrun)
  · intro hne spurious calls hcalls schedule c hrun
    obtain ⟨p', hp', hsound, hempty, -⟩ :=
      PipeT.pipeNew_sound (α := α) hmincap hne hcap hlimit
    obtain rfl := Option.some.inj (hp.symm.trans hp')
    exact ((fifoInv_start hsound hempty hcalls).run hrun).isQueue

/-- In the debug build it is two. -/
theorem isQueue_iff_debug : ∃ p, PipeT.pipeNew ℕ 2 (2 ^ 3) 0 = some p ∧
    ¬ ∀ (spurious : Bool) (calls : Fin 2 → List (PipeCall ℕ)),
      (∀ i, ∀ call ∈ calls i, call.Whole p.elemSize) →
        ∀ schedule c, run (step (pipeTurn spurious)) (start p calls) schedule = some c →
          IsQueue c := by
  obtain ⟨p, hp⟩ : ∃ p, PipeT.pipeNew ℕ 2 (2 ^ 3) 0 = some p := ⟨_, rfl⟩
  refine ⟨p, hp, fun hall => ?_⟩
  exact (isQueue_iff (by decide) (by decide) (by decide) hp).mp hall 1 rfl

/-! ## The ten million -/

theorem defaultMincap_ne (j : ℕ) : defaultMincap ≠ 2 ^ j := by
  intro heq
  rcases Nat.lt_or_ge j 24 with hlt | hge
  · have hle : 2 ^ j ≤ 2 ^ 23 := Nat.pow_le_pow_right (by norm_num) (by omega)
    rw [← heq] at hle
    exact absurd hle (by decide)
  · have hle : 2 ^ 24 ≤ 2 ^ j := Nat.pow_le_pow_right (by norm_num) hge
    rw [← heq] at hle
    exact absurd hle (by decide)

variable {p : PipeT α}

omit [DecidableEq ι] in
/-- A power of two above the ten million and not above 2²⁴ is 2²⁴. -/
theorem eq_of_defaultMincap_lt {j : ℕ} (hlt : defaultMincap * 2 ^ k < 2 ^ j)
    (hle : 2 ^ j ≤ 2 ^ (24 + k)) : j = 24 + k := by
  have hupper := (Nat.pow_le_pow_iff_right (by norm_num)).mp hle
  by_contra hne
  have hpow : 2 ^ j ≤ 2 ^ 23 * 2 ^ k := by
    rw [← pow_add]
    exact Nat.pow_le_pow_right (by norm_num) (by omega)
  have hless : 2 ^ 23 * 2 ^ k ≤ defaultMincap * 2 ^ k := Nat.mul_le_mul_right _ (by decide)
  omega

/-- **A limit below 2²⁴ is of no account.** -/
theorem pipeNew_default (hk : k ≤ 39) (hlimit : limit < 2 ^ 24)
    (hp : PipeT.pipeNew α defaultMincap (2 ^ k) limit = some p) :
    p.Sound ∧ p.contents = [] ∧ p.elemSize = 2 ^ k ∧ p.minCap = defaultMincap * 2 ^ k ∧
      p.maxCap = 2 ^ (24 + k) := by
  have htop : 2 ^ (24 + k) ≤ 2 ^ 63 := Nat.pow_le_pow_right (by norm_num) (by omega)
  have hcap : defaultMincap * 2 ^ k ≤ 2 ^ (24 + k) := by
    rw [pow_add]
    exact Nat.mul_le_mul_right _ (by decide)
  have hlimit' : (limit + 1) * 2 ^ k ≤ 2 ^ (24 + k) := by
    rw [pow_add]
    exact Nat.mul_le_mul_right _ hlimit
  obtain ⟨p', hp', hsound, hempty, helem, hmin, hmax⟩ :=
    PipeT.pipeNew_sound (α := α) (by decide) defaultMincap_ne (hcap.trans htop)
      (hlimit'.trans htop)
  obtain rfl := Option.some.inj (hp.symm.trans hp')
  refine ⟨hsound, hempty, helem, hmin, ?_⟩
  obtain ⟨m, -, hm⟩ := hsound.max
  have hlt := hsound.min_lt
  rw [hmin, hm] at hlt
  have hpos := Nat.two_pow_pos k
  have hle : 2 ^ m ≤ 2 ^ (24 + k) := by
    obtain ⟨l, hl, -, hdouble⟩ := nextPow2_spec
      (n := max ((limit + 1) * 2 ^ k) (defaultMincap * 2 ^ k)) (by unfold defaultMincap; omega)
      (by omega)
    rw [← hm, hmax, hl]
    have hbound : 2 ^ l < 2 ^ (24 + k + 1) := by
      rw [pow_succ]
      omega
    exact Nat.pow_le_pow_right (by norm_num)
      (Nat.lt_succ_iff.mp ((Nat.pow_lt_pow_iff_right (by norm_num)).mp hbound))
  rw [hm, eq_of_defaultMincap_lt hlt hle]

variable {c c' : PipeUsers ι α} {i : ι} {spurious : Bool} {calls : ι → List (PipeCall α)}
  {schedule schedule' : List ι}

/-- No run changes the sizes, and one that begins with a buffer larger than `min_cap`
ends with such a one. -/
theorem FifoInv.sizes_run (h : FifoInv c)
    (hrun : Trace.run (Interleave.step (pipeTurn spurious)) c schedule = some c') :
    c.shared.pipe.SameSizes c'.shared.pipe ∧
      (c.shared.pipe.minCap < c.shared.pipe.capacity →
        c.shared.pipe.minCap < c'.shared.pipe.capacity) := by
  have hkeeps : ∀ (d : PipeUsers ι α) (k : ι) (d' : PipeUsers ι α),
      (FifoInv d ∧ c.shared.pipe.SameSizes d.shared.pipe ∧
        (c.shared.pipe.minCap < c.shared.pipe.capacity →
          c.shared.pipe.minCap < d.shared.pipe.capacity)) →
      Interleave.step (pipeTurn spurious) d k = some d' →
        (FifoInv d' ∧ c.shared.pipe.SameSizes d'.shared.pipe ∧
          (c.shared.pipe.minCap < c.shared.pipe.capacity →
            c.shared.pipe.minCap < d'.shared.pipe.capacity)) := by
    rintro d k d' ⟨hd, hsizes, hlarge⟩ hstep
    obtain ⟨hsizes', hbuffer⟩ := (hd.buffer_step hstep).sizes
    refine ⟨hd.step hstep, hsizes.trans hsizes', fun hlt => ?_⟩
    rcases hbuffer with hlength | hlt'
    · have hcapacity : d'.shared.pipe.capacity = d.shared.pipe.capacity := by
        show d'.shared.pipe.buffer.length - d'.shared.pipe.elemSize =
          d.shared.pipe.buffer.length - d.shared.pipe.elemSize
        rw [hlength, hsizes'.elemSize]
      exact hcapacity ▸ hlarge hlt
    · exact hsizes.minCap ▸ hlt'
  exact (run_preserves hkeeps ⟨h, .refl _, id⟩ hrun).2

omit [DecidableEq ι] in
/-- **A pipe with the sizes of the release build** has the buffer it was made with, which
the assertion allows, or one of 2²⁴ elements, which it does not. -/
theorem sizes_of_default (hsound : p.Sound) (hmin : p.minCap = defaultMincap * 2 ^ k)
    (hmax : p.maxCap = 2 ^ (24 + k)) :
    (p.buffer.length = p.minCap ∧ p.SizeAsserted ∨
      p.minCap < p.capacity ∧ p.capacity = 2 ^ (24 + k) ∧ ¬ p.SizeAsserted) ∧
    p.trim = some p := by
  have hlength := hsound.length_eq
  have hle := hsound.capacity_le
  have hlt := hsound.min_lt
  have hpos : 0 < p.elemSize := hsound.placed.elem_pos
  constructor
  · rcases hsound.size with hsize | ⟨hlarge, j, hj⟩
    · exact .inl ⟨hsize, by omega, by omega⟩
    · obtain rfl := eq_of_defaultMincap_lt (k := k) (j := j) (by omega) (by omega)
      refine .inr ⟨hlarge, hj, fun hasserted => ?_⟩
      have hbound := hasserted.2
      omega
  · unfold PipeT.trim
    split
    · refine PipeT.resizeBuffer_of_le_min ?_ (by omega)
      have hhalf : 2 ^ 23 * 2 ^ k ≤ defaultMincap * 2 ^ k := Nat.mul_le_mul_right _ (by decide)
      rw [show 24 + k = 23 + k + 1 by omega, pow_succ, pow_add] at hmax
      omega
    · rfl

/-- **The sizes of a pipe in the release build**, in every run: the buffer is as it was
made until it grows, once, to 2²⁴ elements, and is never trimmed. From then on the
last assertion of `check_invariants` is false. -/
theorem default_sizes (hk : k ≤ 39) (hlimit : limit < 2 ^ 24)
    (hp : PipeT.pipeNew α defaultMincap (2 ^ k) limit = some p)
    (hcalls : ∀ i, ∀ call ∈ calls i, call.Whole p.elemSize)
    (hrun : run (step (pipeTurn spurious)) (start p calls) schedule = some c) :
    (c.shared.pipe.buffer.length = defaultMincap * 2 ^ k ∧ c.shared.pipe.SizeAsserted ∨
      c.shared.pipe.capacity = 2 ^ (24 + k) ∧ ¬ c.shared.pipe.SizeAsserted ∧
        ∀ schedule' c', run (step (pipeTurn spurious)) c schedule' = some c' →
          c'.shared.pipe.capacity = 2 ^ (24 + k)) ∧
    c.shared.pipe.trim = some c.shared.pipe := by
  obtain ⟨hsound, hempty, helem, hmin, hmax⟩ := pipeNew_default hk hlimit hp
  have hinv := (fifoInv_start hsound hempty hcalls).run hrun
  obtain ⟨hsizes, -⟩ := (fifoInv_start hsound hempty hcalls).sizes_run hrun
  have hmin' : c.shared.pipe.minCap = defaultMincap * 2 ^ k := hsizes.minCap.trans hmin
  have hmax' : c.shared.pipe.maxCap = 2 ^ (24 + k) := hsizes.maxCap.trans hmax
  obtain ⟨hshape, htrim⟩ := sizes_of_default hinv.sound hmin' hmax'
  refine ⟨?_, htrim⟩
  rcases hshape with ⟨hlength, hasserted⟩ | ⟨hlarge, hcapacity, hnot⟩
  · exact .inl ⟨hlength.trans hmin', hasserted⟩
  · refine .inr ⟨hcapacity, hnot, fun schedule' c' hrun' => ?_⟩
    obtain ⟨hsizes', hstays⟩ := hinv.sizes_run hrun'
    have hlarge' := hstays hlarge
    rcases (sizes_of_default (hinv.run hrun').sound (hsizes'.minCap.trans hmin')
      (hsizes'.maxCap.trans hmax')).1 with ⟨hlength, -⟩ | ⟨-, hcapacity', -⟩
    · have heq := (hinv.run hrun').sound.length_eq
      have hsame := hsizes'.minCap
      omega
    · exact hcapacity'

/-- One thread pushes into a new pipe. -/
theorem push_run [Inhabited ι] (hsound : p.Sound) (hempty : p.contents = []) {elems : List α}
    (hwhole : p.elemSize ∣ elems.length) (hmax : elems.length ≤ p.maxCap) :
    ∃ schedule c, run (step (pipeTurn false)) (start p fun _ : ι => [.pipePush elems]) schedule =
        some c ∧ c.shared.pipe.contents = elems.map some ∧
      (elems ≠ [] → c.thread default = ⟨.returned, []⟩) := by
  have hused : p.bytesInUse = 0 := by rw [← hsound.length_contents, hempty, List.length_nil]
  by_cases hne : elems = []
  · subst hne
    exact ⟨[], _, rfl, hempty, fun h => absurd rfl h⟩
  · obtain ⟨p', hsolo, hsound', hcontents, -⟩ := push_solo false (default : ι) []
      (s := (start p fun _ => [.pipePush elems]).shared) elems hsound rfl (.inl rfl) hwhole hne
      (by
        show p.bytesInUse + elems.length ≤ p.maxCap
        rw [hused, Nat.zero_add]
        exact hmax)
    have henter : Solo (pipeTurn false) (default : ι)
        (start p fun _ => [.pipePush elems]).shared ⟨.returned, [.pipePush elems]⟩
        (start p fun _ => [.pipePush elems]).shared
        ⟨if elems = [] then .returned else .pushLock elems, []⟩ :=
      enter_solo false default [] _
    rw [if_neg hne] at henter
    obtain ⟨schedule, hrun⟩ := (henter.trans hsolo).reaches
      (f := fun _ => ⟨.returned, [.pipePush elems]⟩) rfl
    refine ⟨schedule, _, hrun, ?_, fun _ => by simp only [Function.update_self]⟩
    show p'.contents = _
    rw [hcontents]
    show p.contents ++ _ = _
    rw [hempty, List.nil_append]

/-- **A pipe made without a limit has one**: it can hold any number of elements up to
2²⁴, and never holds more. So it is with any limit below that. -/
theorem reachable_count_iff [Inhabited ι] [Inhabited α] {n : ℕ} (hk : k ≤ 39)
    (hlimit : limit < 2 ^ 24)
    (hp : PipeT.pipeNew α defaultMincap (2 ^ k) limit = some p) :
    (∃ calls : ι → List (PipeCall α), (∀ i, ∀ call ∈ calls i, call.Whole p.elemSize) ∧
      ∃ spurious schedule c, run (step (pipeTurn spurious)) (start p calls) schedule = some c ∧
        c.shared.pipe.bytesInUse = n * 2 ^ k) ↔ n ≤ 2 ^ 24 := by
  obtain ⟨hsound, hempty, helem, hmin, hmax⟩ := pipeNew_default hk hlimit hp
  have hpos := Nat.two_pow_pos k
  constructor
  · rintro ⟨calls, hcalls, spurious, schedule, c, hrun, hused⟩
    have hinv := (fifoInv_start hsound hempty hcalls).run hrun
    obtain ⟨hsizes, -⟩ := (fifoInv_start hsound hempty hcalls).sizes_run hrun
    have hle := hinv.sound.bytesInUse_le
    have hle' := hinv.sound.capacity_le
    rw [hsizes.maxCap, show (start p calls).shared.pipe.maxCap = p.maxCap from rfl, hmax,
      pow_add] at hle'
    exact Nat.le_of_mul_le_mul_right (hused ▸ hle.trans hle') hpos
  · intro hn
    obtain ⟨elems, helems⟩ : ∃ elems : List α, elems.length = n * 2 ^ k :=
      ⟨List.replicate _ default, List.length_replicate⟩
    have hwhole : p.elemSize ∣ elems.length := by
      rw [helem, helems]
      exact Nat.dvd_mul_left _ _
    have hroom : elems.length ≤ p.maxCap := by
      rw [helems, hmax, pow_add]
      exact Nat.mul_le_mul_right _ hn
    obtain ⟨schedule, c, hrun, hcontents, -⟩ := push_run (ι := ι) hsound hempty hwhole hroom
    have hcalls : ∀ i : ι, ∀ call ∈ [PipeCall.pipePush elems], call.Whole p.elemSize := by
      intro i call hcall
      obtain rfl := List.mem_singleton.mp hcall
      exact hwhole
    refine ⟨fun _ => [.pipePush elems], hcalls, false, schedule, c, hrun, ?_⟩
    have hinv := (fifoInv_start hsound hempty hcalls).run hrun
    rw [← hinv.sound.length_contents, hcontents, List.length_map, helems]

/-- A pipe made without a limit, of pointers, can be brought to hold 2²⁴ of them. -/
theorem reachable_count_iff_pointer : ∃ p : PipeT ℕ,
    PipeT.pipeNew ℕ defaultMincap (2 ^ 3) 0 = some p ∧
    ∃ (calls : Unit → List (PipeCall ℕ)) (spurious : Bool) (schedule : List Unit)
      (c : PipeUsers Unit ℕ), run (step (pipeTurn spurious)) (start p calls) schedule = some c ∧
        c.shared.pipe.bytesInUse = 2 ^ 24 * 2 ^ 3 := by
  obtain ⟨p, hp⟩ : ∃ p, PipeT.pipeNew ℕ defaultMincap (2 ^ 3) 0 = some p := ⟨_, rfl⟩
  obtain ⟨calls, -, spurious, schedule, c, hrun, hused⟩ :=
    (reachable_count_iff (ι := Unit) (by decide) (by decide) hp).mpr le_rfl
  exact ⟨p, hp, calls, spurious, schedule, c, hrun, hused⟩

end PipeUsers

end SosFlow
