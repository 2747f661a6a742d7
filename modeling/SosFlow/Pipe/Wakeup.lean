import SosFlow.Pipe.Limits

/-!
# A signal that comes too early

A pop tests the pipe and waits under `begin_lock`. A push moves `end` under
`end_lock`, and signals with neither. So a push can fall between the test
and the wait: its signal wakes nobody, and the pop then sleeps in front of
a pipe that is not empty, until somebody pushes again (`lost_wakeup`).

The threads of the daemon that take the messages and the feedback pop
without a look at `elem_count`, and can sleep so.
-/

namespace SosFlow

open Interleave Trace

variable {ι α : Type} [DecidableEq ι] {p : PipeT α} {k limit : ℕ}

namespace PipeUsers

/-- The calls of one who pushes and one who pops. -/
def pushAndPop (a b : ι) (elems : List α) (count : ℕ) : ι → List (PipeCall α) :=
  Function.update (Function.update (fun _ => []) b [.pipePopEager count]) a [.pipePush elems]

/-- **A pop sleeps in front of a pipe that is not empty**, and nobody can move: for any
push that the new buffer holds, and any pop. -/
theorem lost_wakeup (hk : k ≤ 39) (hlimit : limit < 2 ^ 24)
    (hp : PipeT.pipeNew α defaultMincap (2 ^ k) limit = some p) {a b : ι} (hab : a ≠ b)
    {elems : List α} {count : ℕ} (hne : elems ≠ []) (hdvd : 2 ^ k ∣ elems.length)
    (hfits : elems.length < defaultMincap * 2 ^ k) (hcount : count ≠ 0) :
    ∃ schedule c, run (step (pipeTurn false)) (start p (pushAndPop a b elems count)) schedule =
        some c ∧
      c.shared.pipe.contents = elems.map some ∧ (c.thread b).pos.Sleeps c.shared b ∧
      ∀ i, step (pipeTurn false) c i = none := by
  obtain ⟨hsound, hempty, helem, hmin, hmax⟩ := pipeNew_default hk hlimit hp
  have hused : p.bytesInUse = 0 := by rw [← hsound.length_contents, hempty, List.length_nil]
  have hpos := Nat.two_pow_pos k
  have hleft : count * p.elemSize ≠ 0 := Nat.mul_ne_zero hcount (by omega)
  -- the buffer has room for one element less than `min_cap`
  have hroom : p.bytesInUse + elems.length ≤ p.capacity := by
    have hstep := add_le_of_dvd_of_lt hdvd (Nat.dvd_mul_left (2 ^ k) defaultMincap) hfits
    have hlength := hsound.length_eq
    rcases hsound.size with hsize | ⟨hlarge, -⟩
    · omega
    · omega
  let s₀ : PipeShared ι α := (start p (pushAndPop a b elems count)).shared
  let s₁ : PipeShared ι α := { s₀ with beginLock := ⟨some b, false⟩ }
  -- the pop tests, and finds nothing
  have htest : Solo (pipeTurn false) b s₀ ⟨.returned, [.pipePopEager count]⟩ s₁
      ⟨.popWait (count * p.elemSize) true, []⟩ := by
    have henter : Solo (pipeTurn false) b s₀ ⟨.returned, [.pipePopEager count]⟩ s₀
        ⟨if count * p.elemSize = 0 then .returned else .popLock (count * p.elemSize) true, []⟩ :=
      enter_solo false b [] _
    rw [if_neg hleft] at henter
    refine henter.trans ((popLock_solo false b [] _ true rfl).trans
      (solo_of_callStep false b [] (fun h => by cases h) ?_))
    exact congrArg some (Prod.ext rfl (if_pos hused))
  -- the push is done from beginning to end
  obtain ⟨p', hpush, -, hcontents, -⟩ := push_solo false a [] (s := s₁) elems hsound rfl
    (.inr hroom) (helem ▸ hdvd) hne
    (by
      show p.bytesInUse + elems.length ≤ p.maxCap
      exact hroom.trans hsound.capacity_le)
  rw [show s₁.justPushed = .idle from rfl, PipeT.notify_idle] at hpush
  have henter : Solo (pipeTurn false) a s₁ ⟨.returned, [.pipePush elems]⟩ s₁
      ⟨if elems = [] then .returned else .pushLock elems, []⟩ := enter_solo false a [] _
  rw [if_neg hne] at henter
  -- and the pop waits
  let s₂ : PipeShared ι α :=
    { s₁ with pipe := p', justPushed := .idle, sent := s₁.sent ++ elems.map fun x => (a, x) }
  have hwait : Solo (pipeTurn false) b s₂ ⟨.popWait (count * p.elemSize) true, []⟩
      { s₂ with beginLock := s₂.beginLock.release b, justPushed := CondState.idle.wait b }
      ⟨.popAsleep (count * p.elemSize) true, []⟩ :=
    solo_of_callStep false b [] (fun h => by cases h) rfl
  let f : ι → PipeUser α := fun i => ⟨.returned, pushAndPop a b elems count i⟩
  have hfb : f b = ⟨.returned, [.pipePopEager count]⟩ := by
    simp only [f, pushAndPop, Function.update_of_ne hab.symm, Function.update_self]
  have hfa : f a = ⟨.returned, [.pipePush elems]⟩ := by
    simp only [f, pushAndPop, Function.update_self]
  obtain ⟨schedule, hrun⟩ := (htest.reaches hfb).trans
    (((henter.trans hpush).reaches (by rw [Function.update_of_ne hab, hfa])).trans
      (hwait.reaches (by rw [Function.update_of_ne hab.symm, Function.update_self])))
  refine ⟨schedule, _, hrun, ?_, ?_, ?_⟩
  · show p'.contents = _
    rw [hcontents]
    show p.contents ++ _ = _
    rw [hempty, List.nil_append]
  · simp only [Function.update_self]
    exact CondState.asleep_wait rfl b
  · intro i
    refine Option.map_eq_none_iff.mpr ?_
    by_cases hb : i = b
    · subst hb
      simp only [Function.update_self]
      refine Option.map_eq_none_iff.mpr (if_neg ?_)
      rintro (hfalse | hwoken)
      · cases hfalse
      · exact hwoken (CondState.asleep_wait rfl i)
    · by_cases ha : i = a
      · subst ha
        simp only [Function.update_of_ne hb, Function.update_self]
        rfl
      · simp only [Function.update_of_ne hb, Function.update_of_ne ha, f, pushAndPop]
        rfl

/-- One pointer is pushed, and one popped. -/
theorem lost_wakeup_pointer : ∃ p, PipeT.pipeNew ℕ defaultMincap (2 ^ 3) 0 = some p ∧
    ∃ schedule c, run (step (pipeTurn false))
        (start p (pushAndPop (0 : Fin 2) 1 (List.replicate 8 0) 1)) schedule = some c ∧
      c.shared.pipe.contents = (List.replicate 8 0).map some ∧
      (c.thread 1).pos.Sleeps c.shared 1 ∧ ∀ i, step (pipeTurn false) c i = none := by
  obtain ⟨p, hp⟩ : ∃ p, PipeT.pipeNew ℕ defaultMincap (2 ^ 3) 0 = some p := ⟨_, rfl⟩
  exact ⟨p, hp, lost_wakeup (by decide) (by decide) hp (by decide) (by decide) (by decide)
    (by decide) (by decide)⟩

end PipeUsers

end SosFlow
