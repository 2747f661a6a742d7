import SosFlow.Pipe.Alone
import SosFlow.Pub.Types

/-!
# The pipe that is a `SosPipe`

Elsewhere a `SOS_pipe` is the list of its items. A pipe that one thread uses
at a time is just that: what it holds are the bytes of the items, each of
the same number, and a push or a pop does to the items what the list's
operation does, as long as there is room for the one and something for the
other (`use_refines`). So it is for any sequence of them (`uses_refines`),
and every pop hands over the bytes of the items that the list gives up.
-/

namespace SosFlow

open Interleave

/-! ## Items of the same width -/

section

variable {α β : Type} {enc : β → List α} {width : ℕ} (hwidth : ∀ b, (enc b).length = width)

include hwidth

theorem length_flatMap_width (xs : List β) : (xs.flatMap enc).length = xs.length * width := by
  induction xs with
  | nil => exact (Nat.zero_mul width).symm
  | cons x xs ih => rw [List.flatMap_cons, List.length_append, hwidth, ih, List.length_cons,
      Nat.succ_mul, Nat.add_comm]

/-- The first bytes are those of the first items. -/
theorem take_flatMap_width (xs : List β) (n : ℕ) :
    (xs.flatMap enc).take (n * width) = (xs.take n).flatMap enc := by
  induction xs generalizing n with
  | nil => rw [List.take_nil, List.flatMap_nil, List.take_nil]
  | cons x xs ih =>
      cases n with
      | zero => rw [Nat.zero_mul, List.take_zero, List.take_zero, List.flatMap_nil]
      | succ n =>
          rw [List.take_succ_cons, List.flatMap_cons, List.flatMap_cons, List.take_append, hwidth,
            Nat.succ_mul, Nat.add_sub_cancel, ih, List.take_of_length_le]
          rw [hwidth]
          omega

/-- And the others those of the others. -/
theorem drop_flatMap_width (xs : List β) (n : ℕ) :
    (xs.flatMap enc).drop (n * width) = (xs.drop n).flatMap enc := by
  have hsplit : (xs.take n).flatMap enc ++ (xs.flatMap enc).drop (n * width) =
      (xs.take n).flatMap enc ++ (xs.drop n).flatMap enc := by
    rw [← take_flatMap_width hwidth, List.take_append_drop, take_flatMap_width hwidth,
      ← List.flatMap_append, List.take_append_drop]
  exact List.append_cancel_left hsplit

end

/-! ## The operations -/

/-- An operation on a queue of items. -/
inductive PipeUse (β : Type) where
  | push (xs : List β)
  | pop (n : ℕ) (eager : Bool)

/-- The call it is, for items that take up `enc`. -/
def PipeUse.call {α β : Type} (enc : β → List α) : PipeUse β → PipeCall α
  | push xs => .pipePush (xs.flatMap enc)
  | pop n eager => if eager then .pipePopEager n else .pipePop n

/-- **What it does to a list of items**, if it need not wait: a push while `most` items
are there, the eager pop for the first item, the other for the last. -/
def PipeUse.apply {β : Type} (most : ℕ) (q : SosPipe β) : PipeUse β → Option (List β × SosPipe β)
  | push xs => if q.items.length + xs.length ≤ most then some ([], xs.foldl SosPipe.push q) else none
  | pop n eager =>
      if n = 0 ∨ n ≤ q.items.length ∨ eager = true ∧ q.items ≠ [] then some (q.pop n) else none

/-- One after the other. -/
def SosPipe.uses {β : Type} (most : ℕ) (q : SosPipe β) :
    List (PipeUse β) → Option (List β × SosPipe β)
  | [] => some ([], q)
  | use :: rest =>
      (use.apply most q).bind fun r =>
        (r.2.uses most rest).map fun r' => (r.1 ++ r'.1, r'.2)

variable {ι α β : Type} [DecidableEq ι]
  {s : PipeShared ι α} {enc : β → List α} {q q' : SosPipe β} {most : ℕ}

/-- **A pipe holds the items of a list**, and nobody is at it. -/
structure Represents (enc : β → List α) (q : SosPipe β) (s : PipeShared ι α) : Prop where
  sound : s.pipe.Sound
  endFree : s.endLock.holder = none
  beginFree : s.beginLock.holder = none
  width : ∀ b, (enc b).length = s.pipe.elemSize
  contents : s.pipe.contents = (q.items.flatMap enc).map some

theorem items_foldl_push (xs : List β) (q : SosPipe β) :
    (xs.foldl SosPipe.push q).items = q.items ++ xs := by
  induction xs generalizing q with
  | nil => exact (List.append_nil _).symm
  | cons x xs ih =>
      rw [List.foldl_cons, ih]
      exact List.append_assoc _ [x] xs

omit [DecidableEq ι] in
theorem Represents.bytesInUse (h : Represents enc q s) :
    s.pipe.bytesInUse = q.items.length * s.pipe.elemSize := by
  rw [← h.sound.length_contents, h.contents, List.length_map, length_flatMap_width h.width]

/-- A push. Items of a positive width that take up nothing are none. -/
theorem push_refines (spurious : Bool) (i : ι) {xs : List β} (h : Represents enc q s)
    (hmost : most * s.pipe.elemSize ≤ s.pipe.maxCap) (hroom : q.items.length + xs.length ≤ most)
    (rest : List (PipeCall α)) :
    ∃ s', Solo (pipeTurn spurious) i s ⟨.returned, (PipeUse.push xs).call enc :: rest⟩ s'
        ⟨.returned, rest⟩ ∧
      Represents enc (xs.foldl SosPipe.push q) s' ∧ s.pipe.SameSizes s'.pipe ∧
      s'.received = s.received := by
  have hpos : 0 < s.pipe.elemSize := h.sound.placed.elem_pos
  have hentry : Solo (pipeTurn spurious) i s ⟨.returned, (PipeUse.push xs).call enc :: rest⟩ s
      ⟨if xs.flatMap enc = [] then .returned else .pushLock (xs.flatMap enc), rest⟩ :=
    enter_solo spurious i rest _
  by_cases hnil : xs.flatMap enc = []
  · have hxs : xs = [] := by
      have hlength := length_flatMap_width h.width xs
      rw [hnil, List.length_nil] at hlength
      refine List.eq_nil_of_length_eq_zero ((Nat.mul_eq_zero.mp hlength.symm).resolve_right ?_)
      omega
    subst hxs
    rw [if_pos hnil] at hentry
    exact ⟨s, hentry, h, ⟨rfl, rfl, rfl⟩, rfl⟩
  · obtain ⟨p', hsolo, hsound', hcontents, hsizes⟩ := push_solo spurious i rest
      (xs.flatMap enc) h.sound h.endFree (.inl h.beginFree)
      (by rw [length_flatMap_width h.width]; exact Nat.dvd_mul_left _ _) hnil
      (by
        rw [h.bytesInUse, length_flatMap_width h.width, ← Nat.add_mul]
        exact Nat.le_trans (Nat.mul_le_mul_right _ hroom) hmost)
    rw [if_neg hnil] at hentry
    refine ⟨_, hentry.trans hsolo, ?_, hsizes, rfl⟩
    exact
      { sound := hsound'
        endFree := h.endFree
        beginFree := h.beginFree
        width := fun b => (h.width b).trans hsizes.elemSize.symm
        contents := by
          rw [items_foldl_push, List.flatMap_append, List.map_append, ← h.contents]
          exact hcontents }

/-- A pop that has what it waits for. -/
theorem pop_refines (spurious : Bool) (i : ι) {n : ℕ} {eager : Bool} (h : Represents enc q s)
    (hready : n = 0 ∨ n ≤ q.items.length ∨ (eager ∧ q.items ≠ [])) (rest : List (PipeCall α)) :
    ∃ s', Solo (pipeTurn spurious) i s ⟨.returned, (PipeUse.pop n eager : PipeUse β).call enc :: rest⟩
        s' ⟨.returned, rest⟩ ∧
      Represents enc (q.pop n).2 s' ∧ s.pipe.SameSizes s'.pipe ∧
      s'.received = s.received ++ (q.items.take n).flatMap enc := by
  have hpos : 0 < s.pipe.elemSize := h.sound.placed.elem_pos
  have hentry : Solo (pipeTurn spurious) i s
      ⟨.returned, (PipeUse.pop n eager : PipeUse β).call enc :: rest⟩ s
      ⟨if n * s.pipe.elemSize = 0 then .returned
        else .popLock (n * s.pipe.elemSize) eager, rest⟩ := by
    cases eager with
    | false => exact enter_solo spurious i rest _
    | true => exact enter_solo spurious i rest _
  by_cases hzero : n = 0
  · subst hzero
    rw [if_pos (Nat.zero_mul _)] at hentry
    refine ⟨s, hentry, ?_, ⟨rfl, rfl, rfl⟩, (List.append_nil _).symm⟩
    exact ⟨h.sound, h.endFree, h.beginFree, h.width, h.contents⟩
  have hbytes : n * s.pipe.elemSize ≠ 0 := Nat.mul_ne_zero hzero (by omega)
  have hitems : q.items ≠ [] := by
    rcases hready with hn | hle | ⟨-, hne⟩
    · exact absurd hn hzero
    · exact fun hnil => by rw [hnil, List.length_nil] at hle; omega
    · exact hne
  have hqueued : q.items.flatMap enc ≠ [] := by
    intro hnil
    have hlength := length_flatMap_width h.width q.items
    rw [hnil, List.length_nil] at hlength
    have hcount := List.length_pos_of_ne_nil hitems
    have hmul := Nat.mul_pos hcount hpos
    omega
  obtain ⟨p', hsolo, hsound', hcontents, hsizes⟩ := pop_solo spurious i rest
    (n * s.pipe.elemSize) eager h.sound h.endFree h.beginFree h.contents hqueued
    (Nat.dvd_mul_left _ _)
  -- it does not come back for more
  have hdone : eager = true ∨ n * s.pipe.elemSize - (q.items.flatMap enc).length = 0 := by
    rcases hready with hn | hle | ⟨heager, -⟩
    · exact absurd hn hzero
    · refine .inr (Nat.sub_eq_zero_of_le ?_)
      rw [length_flatMap_width h.width]
      exact Nat.mul_le_mul_right _ hle
    · exact .inl heager
  rw [if_pos hdone] at hsolo
  rw [if_neg hbytes] at hentry
  refine ⟨_, hentry.trans hsolo, ?_, hsizes, ?_⟩
  · exact
      { sound := hsound'
        endFree := h.endFree
        beginFree := h.beginFree
        width := fun b => (h.width b).trans hsizes.elemSize.symm
        contents := by
          rw [drop_flatMap_width h.width] at hcontents
          exact hcontents }
  · show s.received ++ _ = s.received ++ (q.items.take n).flatMap enc
    rw [take_flatMap_width h.width]

/-- **One operation** does to the pipe what it does to the list. -/
theorem use_refines (spurious : Bool) (i : ι) {use : PipeUse β} {out : List β}
    (h : Represents enc q s) (hmost : most * s.pipe.elemSize ≤ s.pipe.maxCap)
    (huse : use.apply most q = some (out, q')) (rest : List (PipeCall α)) :
    ∃ s', Solo (pipeTurn spurious) i s ⟨.returned, use.call enc :: rest⟩ s' ⟨.returned, rest⟩ ∧
      Represents enc q' s' ∧ s.pipe.SameSizes s'.pipe ∧
      s'.received = s.received ++ out.flatMap enc := by
  cases use with
  | push xs =>
      obtain ⟨hroom, heq⟩ := Option.ite_none_right_eq_some.mp huse
      obtain ⟨rfl, rfl⟩ := Prod.mk.inj (Option.some.inj heq)
      obtain ⟨s', hsolo, hrep, hsizes, hreceived⟩ := push_refines spurious i h hmost hroom rest
      exact ⟨s', hsolo, hrep, hsizes, hreceived.trans (List.append_nil _).symm⟩
  | pop n eager =>
      obtain ⟨hready, heq⟩ := Option.ite_none_right_eq_some.mp huse
      obtain ⟨rfl, rfl⟩ := Prod.mk.inj (Option.some.inj heq)
      exact pop_refines spurious i h hready rest

/-- **A pipe that one thread uses is a `SosPipe`**: any sequence of operations that
the list can do at once the pipe does to its end, and it hands over the bytes of
the items that the list gives up. -/
theorem uses_refines (spurious : Bool) (i : ι) {uses : List (PipeUse β)} {out : List β}
    (h : Represents enc q s)
    (hmost : most * s.pipe.elemSize ≤ s.pipe.maxCap) (huses : q.uses most uses = some (out, q')) :
    ∃ s', Solo (pipeTurn spurious) i s ⟨.returned, uses.map (PipeUse.call enc)⟩ s'
        ⟨.returned, []⟩ ∧
      Represents enc q' s' ∧ s'.received = s.received ++ out.flatMap enc := by
  induction uses generalizing q s out with
  | nil =>
      obtain ⟨rfl, rfl⟩ := Prod.mk.inj (Option.some.inj huses)
      exact ⟨s, .refl _ _, h, (List.append_nil _).symm⟩
  | cons use rest ih =>
      obtain ⟨⟨out₁, q₁⟩, huse, hrest⟩ := Option.bind_eq_some_iff.mp huses
      obtain ⟨⟨out₂, q₂⟩, hrest', heq⟩ := Option.map_eq_some_iff.mp hrest
      obtain ⟨rfl, rfl⟩ := Prod.mk.inj heq
      obtain ⟨s₁, hsolo₁, h₁, hsizes, hout₁⟩ :=
        use_refines spurious i h hmost huse (rest.map (PipeUse.call enc))
      obtain ⟨s₂, hsolo₂, h₂, hout₂⟩ := ih h₁ (by rw [hsizes.elemSize, hsizes.maxCap]; exact hmost)
        hrest'
      refine ⟨s₂, hsolo₁.trans hsolo₂, h₂, ?_⟩
      rw [hout₂, hout₁, List.append_assoc, List.flatMap_append]

end SosFlow
