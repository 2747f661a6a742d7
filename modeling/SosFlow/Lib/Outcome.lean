import Mathlib.Tactic.Common

/-!
# Calls that may stop with a fault

A call returns a value or stops with a fault. `Leaves may post` says which
faults it may stop with and what holds of the value it returns otherwise,
and the rules below carry that through a sequence of calls.
-/

namespace Outcome

universe u v

variable {ε : Type v} {α β : Type u}

/-- **A specification of a call**: the faults it may stop with, and what it
returns otherwise. -/
def Leaves (may : ε → Prop) (post : α → Prop) : Except ε α → Prop
  | .ok a => post a
  | .error e => may e

variable {may : ε → Prop} {post post' : α → Prop} {r : Except ε α}

@[simp] theorem leaves_ok {a : α} : Leaves may post (.ok a) ↔ post a := Iff.rfl

@[simp] theorem leaves_error {e : ε} : Leaves may post (.error e) ↔ may e := Iff.rfl

theorem Leaves.mono (h : Leaves may post r) (hpost : ∀ a, post a → post' a) :
    Leaves may post' r := by
  cases r with
  | ok a => exact hpost a h
  | error e => exact h

/-- **The rule for a sequence of calls.** -/
theorem Leaves.bind {f : α → Except ε β} {final : β → Prop} (h : Leaves may post r)
    (hf : ∀ a, post a → Leaves may final (f a)) : Leaves may final (r >>= f) := by
  cases r with
  | ok a => exact hf a h
  | error e => exact h

/-- What a call that returned leaves behind. -/
theorem Leaves.of_ok (h : Leaves may post r) {a : α} (hr : r = .ok a) : post a := by
  rw [hr] at h
  exact h

/-- What a call that stopped stopped with. -/
theorem Leaves.of_error (h : Leaves may post r) {e : ε} (hr : r = .error e) : may e := by
  rw [hr] at h
  exact h

/-- A call that may not stop returns. -/
theorem Leaves.returns (h : Leaves (fun _ : ε => False) post r) : ∃ a, r = .ok a ∧ post a := by
  cases r with
  | ok a => exact ⟨a, rfl, h⟩
  | error e => exact absurd h id

/-- The inversion of a sequence of calls that returned. -/
theorem bind_eq_ok {f : α → Except ε β} {b : β} :
    r >>= f = .ok b ↔ ∃ a, r = .ok a ∧ f a = .ok b := by
  cases r with
  | ok a => exact ⟨fun h => ⟨a, rfl, h⟩, fun ⟨_, ha, h⟩ => by cases ha; exact h⟩
  | error e => exact ⟨fun h => (by cases h), fun ⟨_, ha, _⟩ => (by cases ha)⟩

/-- A partial call, with the fault it stops with where it is not defined. -/
def ofOption (fault : ε) : Option α → Except ε α
  | some a => .ok a
  | none => .error fault

@[simp] theorem ofOption_eq_ok {fault : ε} {x : Option α} {a : α} :
    ofOption fault x = .ok a ↔ x = some a := by
  cases x with
  | none => exact ⟨fun h => (by cases h), fun h => (by cases h)⟩
  | some b =>
      exact ⟨fun h => congrArg some (Except.ok.inj h), fun h => congrArg _ (Option.some.inj h)⟩

end Outcome
