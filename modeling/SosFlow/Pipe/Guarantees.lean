import SosFlow.Pipe.Limits
import SosFlow.Pipe.Queue

/-!
# The pipes of the daemon

What a user of a pipe may count on, whoever else is at it: for a pipe as
`SOS_pipe_init` makes it, in every interleaving of any number of threads.
-/

namespace SosFlow

open Interleave Trace

variable {ι α β : Type} [DecidableEq ι] {p : PipeT α} {k limit : ℕ} {spurious : Bool}
  {calls : ι → List (PipeCall α)} {schedule : List ι}

namespace PipeUsers

variable {c : PipeUsers ι α}

/-- **In the order of its calls** each thread puts its bytes into the pipe, and none is
lost or doubled: what it has put in, what it is about to, and what its later calls
push are what all its calls push. What came out is the front of what was put in. -/
theorem pushed_in_order (hk : k ≤ 39) (hlimit : limit < 2 ^ 24)
    (hp : PipeT.pipeNew α defaultMincap (2 ^ k) limit = some p)
    (hcalls : ∀ i, ∀ call ∈ calls i, call.Whole p.elemSize)
    (hrun : run (step (pipeTurn spurious)) (start p calls) schedule = some c) :
    (∀ i, c.sentBy i ++ ((c.thread i).pos.pending ++
      (c.thread i).calls.flatMap PipeCall.elems) = (calls i).flatMap PipeCall.elems) ∧
    c.shared.received = (c.shared.sent.map Prod.snd).take c.shared.received.length := by
  obtain ⟨hsound, hempty, -⟩ := pipeNew_default hk hlimit hp
  have hstart := fifoInv_start hsound hempty hcalls
  refine ⟨fun i => hstart.outgoing_run hrun i, ?_⟩
  obtain ⟨queued, -, hsent⟩ := (hstart.run hrun).fifo
  rw [← hsent, List.take_left]

/-- **The copies do not meet**: one thread at a time writes into the buffer and one reads
from it, and no byte that is still to be written is one that is still to be read. -/
theorem copies_apart (hk : k ≤ 39) (hlimit : limit < 2 ^ 24)
    (hp : PipeT.pipeNew α defaultMincap (2 ^ k) limit = some p)
    (hcalls : ∀ i, ∀ call ∈ calls i, call.Whole p.elemSize)
    (hrun : run (step (pipeTurn spurious)) (start p calls) schedule = some c) (i j : ι) :
    (∀ a ∈ (c.thread i).pos.toWrite, ∀ b ∈ (c.thread j).pos.toRead, a ≠ b) ∧
    ((c.thread i).pos.toWrite ≠ [] → (c.thread j).pos.toWrite ≠ [] → i = j) ∧
    ((c.thread i).pos.toRead ≠ [] → (c.thread j).pos.toRead ≠ [] → i = j) := by
  obtain ⟨hsound, hempty, -⟩ := pipeNew_default hk hlimit hp
  have h := (fifoInv_start hsound hempty hcalls).run hrun
  exact ⟨fun a ha b hb => h.toWrite_ne_toRead ha hb, h.writer_unique, h.reader_unique⟩

/-- **No deadlock**: where nobody can move, each thread has made all its calls, or sleeps
on a condition. -/
theorem stuck_asleep (hk : k ≤ 39) (hlimit : limit < 2 ^ 24)
    (hp : PipeT.pipeNew α defaultMincap (2 ^ k) limit = some p)
    (hcalls : ∀ i, ∀ call ∈ calls i, call.Whole p.elemSize)
    (hrun : run (step (pipeTurn spurious)) (start p calls) schedule = some c)
    (hstuck : ∀ j, step (pipeTurn spurious) c j = none) (i : ι) :
    c.thread i = ⟨.returned, []⟩ ∨ (c.thread i).pos.Sleeps c.shared i := by
  obtain ⟨hsound, hempty, -⟩ := pipeNew_default hk hlimit hp
  exact ((fifoInv_start hsound hempty hcalls).run hrun).asleep_of_stuck hstuck

/-- **Used by one thread, a pipe is a `SosPipe`.** -/
theorem alone_is_sosPipe [Inhabited ι] (spurious : Bool) (hk : k ≤ 39) (hlimit : limit < 2 ^ 24)
    (hp : PipeT.pipeNew α defaultMincap (2 ^ k) limit = some p) {enc : β → List α}
    (henc : ∀ b, (enc b).length = 2 ^ k) (uses : List (PipeUse β)) {out : List β}
    {q : SosPipe β} (huses : SosPipe.uses (2 ^ 24) .empty uses = some (out, q)) :
    ∃ schedule c, run (step (pipeTurn spurious))
        (start p fun _ : ι => uses.map (PipeUse.call enc)) schedule = some c ∧
      c.thread default = ⟨.returned, []⟩ ∧ c.shared.received = out.flatMap enc ∧
      c.shared.pipe.contents = (q.items.flatMap enc).map some := by
  obtain ⟨hsound, hempty, helem, -, hmax⟩ := pipeNew_default hk hlimit hp
  have hrep : Represents enc (SosPipe.empty : SosPipe β)
      (start p fun _ : ι => uses.map (PipeUse.call enc)).shared :=
    ⟨hsound, rfl, rfl, fun b => (henc b).trans helem.symm, hempty⟩
  have hroom : 2 ^ 24 * p.elemSize ≤ p.maxCap := by rw [helem, hmax, pow_add]
  obtain ⟨s', hsolo, hrep', hout⟩ := uses_refines spurious (default : ι) hrep hroom huses
  obtain ⟨schedule, hrun⟩ := hsolo.reaches
    (f := fun _ => ⟨.returned, uses.map (PipeUse.call enc)⟩) rfl
  exact ⟨schedule, _, hrun, by simp only [Function.update_self], hout, hrep'.contents⟩

/-! ## Pointers -/

/-- The bytes of a pointer. -/
def pointer (n : ℕ) : List ℕ := List.replicate 8 n

omit [DecidableEq ι] in
/-- A new pipe of pointers. -/
theorem represents_pointer {p : PipeT ℕ} (hp : PipeT.pipeNew ℕ defaultMincap (2 ^ 3) 0 = some p)
    (calls : ι → List (PipeCall ℕ)) :
    Represents pointer (SosPipe.empty : SosPipe ℕ) (start p calls).shared := by
  obtain ⟨hsound, hempty, helem, -⟩ := pipeNew_default (by decide) (by decide) hp
  exact ⟨hsound, rfl, rfl, fun n => List.length_replicate.trans helem.symm, hempty⟩

/-- Two threads that push, and one that pops. -/
def threeUsers : Fin 3 → List (PipeCall ℕ)
  | 0 => [PipeUse.call pointer (.push [1]), PipeUse.call pointer (.push [2])]
  | 1 => [PipeUse.call pointer (.push [3])]
  | 2 => [PipeUse.call pointer (.pop 1 false), PipeUse.call pointer (.pop 1 false)]

theorem whole_threeUsers {elemSize : ℕ} (helem : elemSize = 2 ^ 3) :
    ∀ i, ∀ call ∈ threeUsers i, call.Whole elemSize := by
  subst helem
  have hpush : ∀ n, (PipeUse.call pointer (.push [n])).Whole (2 ^ 3) := fun n => Nat.dvd_refl 8
  intro i
  match i with
  | 0 => exact List.forall_mem_cons.mpr ⟨hpush 1, List.forall_mem_singleton.mpr (hpush 2)⟩
  | 1 => exact List.forall_mem_singleton.mpr (hpush 3)
  | 2 => exact List.forall_mem_cons.mpr ⟨trivial, List.forall_mem_singleton.mpr trivial⟩

/-- Two of the pointers are in, one of them is out again, and the third is half in while
the second is half out. -/
theorem exists_copying_run : ∃ (p : PipeT ℕ) (schedule : List (Fin 3)) (c : PipeUsers (Fin 3) ℕ)
    (todo : List (ℕ × ℕ)) (todo' got : List ℕ) (snap snap' : PipeSnapshot),
    PipeT.pipeNew ℕ defaultMincap (2 ^ 3) 0 = some p ∧
    run (step (pipeTurn false)) (start p threeUsers) schedule = some c ∧
    c.thread 0 = ⟨.pushCopy todo snap (pointer 2) [], []⟩ ∧ todo.length = 7 ∧
    c.thread 1 = ⟨.returned, []⟩ ∧
    c.thread 2 = ⟨.popCopy todo' got snap' 8 false, []⟩ ∧ todo'.length = 7 ∧
    c.shared.received = pointer 1 := by
  obtain ⟨p, hp⟩ : ∃ p, PipeT.pipeNew ℕ defaultMincap (2 ^ 3) 0 = some p := ⟨_, rfl⟩
  obtain ⟨-, -, helem, hmin, hmax⟩ := pipeNew_default (by decide) (by decide) hp
  have hmost : 2 ^ 24 * p.elemSize ≤ p.maxCap := by rw [helem, hmax, pow_add]
  -- three calls are made to their end
  have huse₁ : (PipeUse.push [1]).apply (2 ^ 24) .empty = some ([], ⟨[1], 1⟩) := rfl
  have huse₂ : (PipeUse.push [3]).apply (2 ^ 24) ⟨[1], 1⟩ = some ([], ⟨[1, 3], 2⟩) := rfl
  have huse₃ : (PipeUse.pop 1 false).apply (2 ^ 24) ⟨[1, 3], 2⟩ = some ([1], ⟨[3], 1⟩) := rfl
  obtain ⟨s₁, hsolo₁, h₁, hsizes₁, hout₁⟩ := use_refines false (0 : Fin 3)
    (represents_pointer hp threeUsers) hmost huse₁ [PipeUse.call pointer (.push [2])]
  obtain ⟨s₂, hsolo₂, h₂, hsizes₂, hout₂⟩ := use_refines false (1 : Fin 3) h₁
    (by rw [hsizes₁.elemSize, hsizes₁.maxCap]; exact hmost) huse₂ []
  have hsizes := hsizes₁.trans hsizes₂
  obtain ⟨s₃, hsolo₃, h₃, hsizes₃, hout₃⟩ := use_refines false (2 : Fin 3) h₂
    (by rw [hsizes.elemSize, hsizes.maxCap]; exact hmost) huse₃
    [PipeUse.call pointer (.pop 1 false)]
  have hsizes := hsizes.trans hsizes₃
  have helem₃ : s₃.pipe.elemSize = 8 := hsizes.elemSize.trans helem
  have hmin₃ : s₃.pipe.minCap = defaultMincap * 2 ^ 3 := hsizes.minCap.trans hmin
  have hused : s₃.pipe.bytesInUse = 8 := by
    rw [h₃.bytesInUse, helem₃]
    rfl
  have hlength := h₃.sound.length_eq
  have hroom : s₃.pipe.bytesInUse + (pointer 2).length ≤ s₃.pipe.capacity := by
    have hpointer : (pointer 2).length = 8 := rfl
    rcases h₃.sound.size with hsize | ⟨hlarge, -⟩
    · unfold defaultMincap at hmin₃
      omega
    · unfold defaultMincap at hmin₃
      omega
  -- and two begin to copy
  have hdvd : s₃.pipe.elemSize ∣ (pointer 2).length := dvd_of_eq helem₃
  obtain ⟨p', todo, snap, hpush, htodo, hsound', hcontents, hsizes'⟩ := pushCopy_solo false
    (0 : Fin 3) [] h₃.sound h₃.endFree (by decide) hdvd hroom
  have hqueued : p'.contents = (pointer 3).map some := hcontents.trans h₃.contents
  have hdvd' : p'.elemSize ∣ 8 := dvd_of_eq (hsizes'.elemSize.trans helem₃)
  obtain ⟨todo', got, snap', hpop, htodo'⟩ := popCopy_solo false (2 : Fin 3) []
    (s := { s₃ with pipe := p', endLock := { s₃.endLock with holder := some (0 : Fin 3) } })
    false hsound' h₃.beginFree hqueued hdvd' (by decide) (by decide)
  have henter : Solo (pipeTurn false) (2 : Fin 3)
      { s₃ with pipe := p', endLock := { s₃.endLock with holder := some 0 } }
      ⟨.returned, [PipeUse.call pointer (.pop 1 false)]⟩
      { s₃ with pipe := p', endLock := { s₃.endLock with holder := some 0 } }
      ⟨.popLock 8 false, []⟩ := by
    have hbytes : 1 * p'.elemSize = 8 := by rw [hsizes'.elemSize, helem₃]
    have hentry : (PipeCall.pipePop 1 : PipeCall ℕ).entry p'.elemSize = .popLock 8 false := by
      rw [PipeCall.entry, hbytes]
      rfl
    exact hentry ▸ enter_solo false 2 [] _
  obtain ⟨schedule, hrun⟩ := (hsolo₁.reaches (f := fun i => ⟨.returned, threeUsers i⟩) rfl).trans
    ((hsolo₂.reaches rfl).trans ((hsolo₃.reaches rfl).trans
      ((((enter_solo false 0 [] _).trans hpush).reaches rfl).trans
        ((henter.trans hpop).reaches rfl))))
  refine ⟨p, schedule, _, todo, todo', got, snap, snap', hp, hrun, rfl, Nat.succ.inj htodo, rfl,
    rfl, Nat.succ.inj htodo', ?_⟩
  show s₃.received = _
  rw [hout₃, hout₂, hout₁]
  rfl

/-- What one has pushed and is about to is in the order of its calls, and the pointer
that came out is the first that went in. -/
theorem pushed_in_order_pointer : ∃ c : PipeUsers (Fin 3) ℕ,
    c.sentBy 0 = pointer 1 ∧ (c.thread 0).pos.pending = pointer 2 ∧ c.sentBy 1 = pointer 3 ∧
    c.shared.received = pointer 1 ∧ (c.shared.sent.map Prod.snd).take 8 = pointer 1 := by
  obtain ⟨p, schedule, c, todo, todo', got, snap, snap', hp, hrun, h₀, -, h₁, -, -, hreceived⟩ :=
    exists_copying_run
  have helem := (pipeNew_default (by decide) (by decide) hp).2.2.1
  obtain ⟨hsent, hfront⟩ :=
    pushed_in_order (by decide) (by decide) hp (whole_threeUsers helem) hrun
  have hfirst := hsent 0
  have hsecond := hsent 1
  rw [h₀] at hfirst
  rw [h₁] at hsecond
  refine ⟨c, ?_, ?_, ?_, hreceived, ?_⟩
  · exact List.append_cancel_right hfirst
  · rw [h₀]
    rfl
  · exact (List.append_nil _).symm.trans hsecond
  · rw [hreceived] at hfront
    exact hfront.symm

/-- A push and a pop have each copied one byte of eight. -/
theorem copies_apart_pointer : ∃ c : PipeUsers (Fin 3) ℕ,
    (c.thread 0).pos.toWrite.length = 7 ∧ (c.thread 2).pos.toRead.length = 7 ∧
    ∀ a ∈ (c.thread 0).pos.toWrite, ∀ b ∈ (c.thread 2).pos.toRead, a ≠ b := by
  obtain ⟨p, schedule, c, todo, todo', got, snap, snap', hp, hrun, h₀, htodo, -, h₂, htodo', -⟩ :=
    exists_copying_run
  have helem := (pipeNew_default (by decide) (by decide) hp).2.2.1
  refine ⟨c, ?_, ?_, (copies_apart (by decide) (by decide) hp (whole_threeUsers helem) hrun
    0 2).1⟩
  · rw [h₀]
    exact (List.length_map _).trans htodo
  · rw [h₂]
    exact htodo'

/-- One thread that pushes, and two that pop. -/
def twoPops : Fin 3 → List (PipeCall ℕ)
  | 0 => [.pipePush (pointer 1)]
  | 1 => [.pipePopEager 1]
  | 2 => [.pipePopEager 1]

theorem whole_twoPops {elemSize : ℕ} (helem : elemSize = 2 ^ 3) :
    ∀ i, ∀ call ∈ twoPops i, call.Whole elemSize := by
  subst helem
  intro i
  match i with
  | 0 => exact List.forall_mem_singleton.mpr (Nat.dvd_refl 8)
  | 1 => exact List.forall_mem_singleton.mpr trivial
  | 2 => exact List.forall_mem_singleton.mpr trivial

/-- Both pops go to sleep. The push wakes one of them, which takes the pointer. -/
theorem exists_asleep_run : ∃ (p : PipeT ℕ) (schedule : List (Fin 3)) (c : PipeUsers (Fin 3) ℕ),
    PipeT.pipeNew ℕ defaultMincap (2 ^ 3) 0 = some p ∧
    run (step (pipeTurn false)) (start p twoPops) schedule = some c ∧
    c.thread 0 = ⟨.returned, []⟩ ∧ c.thread 1 = ⟨.returned, []⟩ ∧
    c.thread 2 = ⟨.popAsleep 8 true, []⟩ ∧ c.shared.justPushed.Asleep 2 := by
  obtain ⟨p, hp⟩ : ∃ p, PipeT.pipeNew ℕ defaultMincap (2 ^ 3) 0 = some p := ⟨_, rfl⟩
  obtain ⟨hsound, hempty, helem, -, hmax⟩ := pipeNew_default (by decide) (by decide) hp
  have helem : p.elemSize = 8 := helem
  have hused : p.bytesInUse = 0 := by rw [← hsound.length_contents, hempty, List.length_nil]
  have hpop : (PipeCall.pipePopEager 1 : PipeCall ℕ).entry p.elemSize = .popLock 8 true := by
    rw [helem]
    rfl
  let s₀ : PipeShared (Fin 3) ℕ := (start p twoPops).shared
  let s₁ : PipeShared (Fin 3) ℕ := { s₀ with justPushed := s₀.justPushed.wait 1 }
  let s₂ : PipeShared (Fin 3) ℕ := { s₁ with justPushed := s₁.justPushed.wait 2 }
  have hsleep₁ : Solo (pipeTurn false) 1 s₀ ⟨.returned, [.pipePopEager 1]⟩ s₁
      ⟨.popAsleep 8 true, []⟩ :=
    (hpop ▸ enter_solo (s := s₀) false 1 [] (.pipePopEager 1)).trans
      (popAsleep_solo false 1 [] 8 true rfl hused)
  have hsleep₂ : Solo (pipeTurn false) 2 s₁ ⟨.returned, [.pipePopEager 1]⟩ s₂
      ⟨.popAsleep 8 true, []⟩ :=
    (hpop ▸ enter_solo (s := s₁) false 2 [] (.pipePopEager 1)).trans
      (popAsleep_solo false 2 [] 8 true rfl hused)
  obtain ⟨p', hpush, hsound', hcontents, hsizes⟩ := push_solo false (0 : Fin 3) [] (s := s₂)
    (pointer 1) hsound rfl (.inl rfl) (dvd_of_eq helem) (by decide) (by
      show p.bytesInUse + (pointer 1).length ≤ p.maxCap
      rw [hused, hmax]
      decide)
  -- one element was pushed, and so one is woken
  let s₃ : PipeShared (Fin 3) ℕ :=
    { s₂ with
      pipe := p'
      justPushed := s₂.justPushed.signal
      sent := s₂.sent ++ (pointer 1).map fun x => (0, x) }
  have hsignal : p'.notify (pointer 1).length s₂.justPushed = s₂.justPushed.signal :=
    if_pos (hsizes.elemSize.trans helem).symm
  rw [hsignal] at hpush
  let s₄ : PipeShared (Fin 3) ℕ := { s₃ with justPushed := s₃.justPushed.wake 1 }
  have hwoken : ¬ s₃.justPushed.Asleep 1 :=
    CondState.not_asleep_signal (List.mem_cons_of_mem _ List.mem_cons_self)
  have hwake : Solo (pipeTurn false) 1 s₃ ⟨.popAsleep 8 true, []⟩ s₄ ⟨.popLock 8 true, []⟩ :=
    solo_of_callStep false 1 [] (fun h => by cases h) (by
      simp only [PipeShared.callStep, if_pos (Or.inr hwoken)]
      rfl)
  have hqueued : s₄.pipe.contents = (pointer 1).map some := by
    show p'.contents = _
    rw [hcontents, show s₂.pipe.contents = [] from hempty, List.nil_append]
  obtain ⟨p'', hpopped, -⟩ := pop_solo false (1 : Fin 3) [] (s := s₄) 8 true hsound' rfl rfl
    hqueued (by decide) (dvd_of_eq (hsizes.elemSize.trans helem))
  obtain ⟨schedule, hrun⟩ := (hsleep₁.reaches (f := fun i => ⟨.returned, twoPops i⟩) rfl).trans
    ((hsleep₂.reaches rfl).trans ((((enter_solo false 0 [] _).trans hpush).reaches rfl).trans
      ((hwake.trans hpopped).reaches rfl)))
  refine ⟨p, schedule, _, hp, hrun, rfl, rfl, rfl, ?_⟩
  exact CondState.asleep_wake_signal rfl (List.mem_cons_of_mem _ List.mem_cons_self)
    List.mem_cons_self (by decide)

/-- The pop that was not woken sleeps on, and the others have returned. -/
theorem stuck_asleep_pointer : ∃ c : PipeUsers (Fin 3) ℕ,
    (c.thread 2).pos = .popAsleep 8 true ∧ (∀ j, step (pipeTurn false) c j = none) ∧
    ∀ i, c.thread i = ⟨.returned, []⟩ ∨ (c.thread i).pos.Sleeps c.shared i := by
  obtain ⟨p, schedule, c, hp, hrun, h₀, h₁, h₂, hasleep⟩ := exists_asleep_run
  have helem := (pipeNew_default (by decide) (by decide) hp).2.2.1
  have hstuck : ∀ j, step (pipeTurn false) c j = none := by
    intro j
    refine Option.map_eq_none_iff.mpr ?_
    match j with
    | 0 => rw [h₀]; rfl
    | 1 => rw [h₁]; rfl
    | 2 =>
        rw [h₂]
        refine Option.map_eq_none_iff.mpr (if_neg ?_)
        rintro (hfalse | hwoken)
        · cases hfalse
        · exact hwoken hasleep
  refine ⟨c, by rw [h₂], hstuck, fun i => ?_⟩
  exact stuck_asleep (by decide) (by decide) hp (whole_twoPops helem) hrun hstuck i

/-- **Ten million pointers** are one too many for the new buffer. It grows, and stays so. -/
theorem default_sizes_pointer : ∃ c : PipeUsers Unit ℕ,
    c.shared.pipe.bytesInUse = defaultMincap * 2 ^ 3 ∧
    (c.shared.pipe.capacity = 2 ^ (24 + 3) ∧ ¬ c.shared.pipe.SizeAsserted ∧
      ∀ schedule c', run (step (pipeTurn false)) c schedule = some c' →
        c'.shared.pipe.capacity = 2 ^ (24 + 3)) ∧
    c.shared.pipe.trim = some c.shared.pipe := by
  obtain ⟨p, hp⟩ : ∃ p, PipeT.pipeNew ℕ defaultMincap (2 ^ 3) 0 = some p := ⟨_, rfl⟩
  obtain ⟨hsound, hempty, helem, -, hmax⟩ := pipeNew_default (by decide) (by decide) hp
  obtain ⟨elems, hmany⟩ : ∃ elems : List ℕ, elems.length = defaultMincap * 2 ^ 3 :=
    ⟨List.replicate _ 7, List.length_replicate⟩
  have hwhole : p.elemSize ∣ elems.length := by
    rw [helem, hmany]
    exact Nat.dvd_mul_left _ _
  have hroom : elems.length ≤ p.maxCap := by
    rw [hmany, hmax]
    decide
  obtain ⟨schedule, c, hrun, hcontents, -⟩ := push_run (ι := Unit) hsound hempty hwhole hroom
  have hcalls : ∀ i : Unit, ∀ call ∈ [PipeCall.pipePush elems], call.Whole p.elemSize :=
    fun _ => List.forall_mem_singleton.mpr hwhole
  obtain ⟨hsize, htrim⟩ := default_sizes (by decide) (by decide) hp hcalls hrun
  have hsound' := ((fifoInv_start hsound hempty hcalls).run hrun).sound
  have hused : c.shared.pipe.bytesInUse = defaultMincap * 2 ^ 3 := by
    rw [← hsound'.length_contents, hcontents, List.length_map, hmany]
  refine ⟨c, hused, hsize.resolve_left ?_, htrim⟩
  rintro ⟨hlength, -⟩
  have hpos : 0 < c.shared.pipe.elemSize := hsound'.placed.elem_pos
  have hle := hsound'.bytesInUse_le
  have heq := hsound'.length_eq
  omega

theorem alone_is_sosPipe_pointer : ∃ c : PipeUsers Unit ℕ,
    c.shared.received = List.replicate 8 5 ∧ c.shared.pipe.contents = [] := by
  obtain ⟨p, hp⟩ : ∃ p, PipeT.pipeNew ℕ defaultMincap (2 ^ 3) 0 = some p := ⟨_, rfl⟩
  obtain ⟨schedule, c, -, -, hreceived, hcontents⟩ :=
    alone_is_sosPipe (ι := Unit) false (by decide) (by decide) hp
      (fun n : ℕ => (List.length_replicate : (List.replicate 8 n).length = 8))
      [.push [5], .pop 1 true] rfl
  exact ⟨c, hreceived, hcontents⟩

end PipeUsers

end SosFlow
