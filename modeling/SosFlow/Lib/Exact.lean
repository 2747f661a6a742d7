import SosFlow.Lib.Memory

/-!
# Exact decoders

A decoder reads a block of cells from a position on, and gives what it read with
the position behind it, or nothing when a read would leave the block. It is
`Exact` for an encoding and a condition when it returns precisely on the
encodings of the values that meet the condition. Exact decoders compose: one
after the other (`andThen`), a number of times (`times`), up to the end of the
block (`upTo`), and under a test (`check`). Of a decoder put together in this
way `returns_iff` says at once on which blocks it returns.
-/

namespace Mem

universe u

variable {α β γ : Type u}

/-- **The decoder is exact**: it returns on the encodings of the values that meet the
condition, and on nothing else. -/
structure Exact (m : List β) (enc : α → List β) (Ok : α → Prop) (read : ℕ → Option (α × ℕ)) :
    Prop where
  reads : ∀ {p a}, Ok a → Holds m p (enc a) → read p = some (a, p + (enc a).length)
  holds : ∀ {p a q}, read p = some (a, q) → Ok a ∧ Holds m p (enc a) ∧ q = p + (enc a).length

/-- A decoder with a test of what it read. -/
def check (read : ℕ → Option (α × ℕ)) (P : α → Prop) [DecidablePred P] (p : ℕ) :
    Option (α × ℕ) := do
  let (a, q) ← read p
  if P a then some (a, q) else none

/-- One decoder after the other. The second may depend on what the first read. -/
def andThen (read : ℕ → Option (α × ℕ)) (next : α → ℕ → Option (γ × ℕ)) (p : ℕ) :
    Option ((α × γ) × ℕ) := do
  let (a, q) ← read p
  let (c, q) ← next a q
  some ((a, c), q)

/-- A decoder `count` times, each time with the next index. -/
def times (read : ℕ → ℕ → Option (α × ℕ)) : ℕ → ℕ → ℕ → Option (List α × ℕ)
  | 0, _, p => some ([], p)
  | count + 1, i, p => do
    let (a, q) ← read i p
    let (as, q) ← times read count (i + 1) q
    some (a :: as, q)

/-- A decoder as long as the position is below `stop`, in at most `rounds`. -/
def upTo (read : ℕ → Option (α × ℕ)) (stop : ℤ) : ℕ → ℕ → Option (List α × ℕ)
  | 0, p => if stop ≤ p then some ([], p) else none
  | rounds + 1, p =>
    if stop ≤ p then some ([], p)
    else do
      let (a, q) ← read p
      let (as, q) ← upTo read stop rounds q
      some (a :: as, q)

variable {m : List β} {enc : α → List β} {Ok : α → Prop} {read : ℕ → Option (α × ℕ)}

/-- **Where an exact decoder returns.** -/
theorem Exact.returns_iff (h : Exact m enc Ok read) (p : ℕ) :
    (∃ r, read p = some r) ↔ ∃ a, Ok a ∧ Holds m p (enc a) := by
  constructor
  · rintro ⟨⟨a, q⟩, hread⟩
    obtain ⟨hok, hholds, -⟩ := h.holds hread
    exact ⟨a, hok, hholds⟩
  · rintro ⟨a, hok, hholds⟩
    exact ⟨_, h.reads hok hholds⟩

/-- The condition in other words. -/
theorem Exact.congr {Ok' : α → Prop} (h : Exact m enc Ok read) (hok : ∀ a, Ok a ↔ Ok' a) :
    Exact m enc Ok' read where
  reads ha := h.reads ((hok _).mpr ha)
  holds hread := (h.holds hread).imp_left (hok _).mp

/-- **A decoder under another name of its values** stays exact. -/
theorem Exact.map (f : α → γ) {enc' : γ → List β} {Ok' : γ → Prop} (h : Exact m enc Ok read)
    (henc : ∀ a, enc' (f a) = enc a) (hok : ∀ c, Ok' c ↔ ∃ a, Ok a ∧ f a = c) :
    Exact m enc' Ok' fun p => (read p).map fun r => (f r.1, r.2) where
  reads := by
    intro p c hc hholds
    obtain ⟨a, ha, rfl⟩ := (hok c).mp hc
    rw [henc] at hholds
    rw [h.reads ha hholds, Option.map_some, henc]
  holds := by
    intro p c q hread
    obtain ⟨⟨a, q'⟩, hfirst, heq⟩ := Option.map_eq_some_iff.mp hread
    obtain ⟨rfl, rfl⟩ := Prod.mk.inj heq
    obtain ⟨ha, hrest⟩ := h.holds hfirst
    rw [henc]
    exact ⟨(hok _).mpr ⟨a, ha, rfl⟩, hrest⟩

/-- **A word of `n` cells** is read exactly by the inverse of its packing. -/
theorem exact_word {pack : α → List β} {unpack : List β → Option α} (mk : α → γ)
    {enc : γ → List β} {Ok : γ → Prop} {n : ℕ} (hpos : 0 < n) (hlen : ∀ v, (pack v).length = n)
    (hunpack : ∀ v, unpack (pack v) = some v) (hpack : ∀ {xs v}, unpack xs = some v → pack v = xs)
    (henc : ∀ v, enc (mk v) = pack v) (hok : ∀ c, Ok c ↔ ∃ v, mk v = c) :
    Exact m enc Ok fun p => do
      let v ← unpack (← load m p n)
      some (mk v, p + n) where
  reads := by
    intro p c hc hholds
    obtain ⟨v, rfl⟩ := (hok c).mp hc
    rw [henc] at hholds ⊢
    have hne : pack v ≠ [] := List.ne_nil_of_length_pos (by rw [hlen]; exact hpos)
    have hload := load_of_holds hholds (hholds.bound hne)
    rw [hlen] at hload ⊢
    simp only [hload, Option.bind_eq_bind, Option.bind_some, hunpack]
  holds := by
    intro p c q hread
    obtain ⟨xs, hload, hread⟩ := Option.bind_eq_some_iff.mp hread
    obtain ⟨v, hv, hread⟩ := Option.bind_eq_some_iff.mp hread
    obtain ⟨rfl, rfl⟩ := Prod.mk.inj (Option.some.inj hread)
    rw [henc, hlen, hpack hv]
    exact ⟨(hok _).mpr ⟨v, rfl⟩, (load_some hload).2.2, rfl⟩

theorem Exact.check (h : Exact m enc Ok read) (P : α → Prop) [DecidablePred P] :
    Exact m enc (fun a => Ok a ∧ P a) (check read P) where
  reads := by
    rintro p a ⟨hok, hP⟩ hholds
    rw [Mem.check, h.reads hok hholds]
    exact if_pos hP
  holds := by
    intro p a q hread
    obtain ⟨⟨a', q'⟩, hfirst, htest⟩ := Option.bind_eq_some_iff.mp hread
    simp only at htest
    split at htest
    case isTrue hP =>
      obtain ⟨rfl, rfl⟩ := Prod.mk.inj (Option.some.inj htest)
      obtain ⟨hok, hrest⟩ := h.holds hfirst
      exact ⟨⟨hok, hP⟩, hrest⟩
    case isFalse => cases htest

/-- **Two exact decoders** one after the other are exact for the two encodings one
after the other. -/
theorem Exact.andThen {next : α → ℕ → Option (γ × ℕ)} {enc' : α → γ → List β} {Ok' : α → γ → Prop}
    (h : Exact m enc Ok read) (hnext : ∀ a, Ok a → Exact m (enc' a) (Ok' a) (next a)) :
    Exact m (fun x : α × γ => enc x.1 ++ enc' x.1 x.2) (fun x => Ok x.1 ∧ Ok' x.1 x.2)
      (andThen read next) where
  reads := by
    rintro p ⟨a, c⟩ ⟨hok, hok'⟩ hholds
    obtain ⟨hfirst, hrest⟩ := holds_append.mp hholds
    have hsecond := (hnext a hok).reads hok' hrest
    rw [Mem.andThen, h.reads hok hfirst]
    simp only [Option.bind_eq_bind, Option.bind_some, hsecond, List.length_append, Nat.add_assoc]
  holds := by
    rintro p ⟨a, c⟩ q hread
    obtain ⟨⟨a', q'⟩, hfirst, hread⟩ := Option.bind_eq_some_iff.mp hread
    obtain ⟨⟨c', q''⟩, hsecond, hread⟩ := Option.bind_eq_some_iff.mp hread
    obtain ⟨heq, rfl⟩ := Prod.mk.inj (Option.some.inj hread)
    obtain ⟨rfl, rfl⟩ := Prod.mk.inj heq
    obtain ⟨hok, hholds, rfl⟩ := h.holds hfirst
    obtain ⟨hok', hholds', rfl⟩ := (hnext a' hok).holds hsecond
    refine ⟨⟨hok, hok'⟩, holds_append.mpr ⟨hholds, hholds'⟩, ?_⟩
    rw [List.length_append, Nat.add_assoc]

/-- What holds of each value at its place, for a first value and others. -/
theorem forall_getElem?_cons {P : ℕ → α → Prop} {a : α} {as : List α} {i : ℕ} :
    (∀ k x, (a :: as)[k]? = some x → P (i + k) x) ↔
      P i a ∧ ∀ k x, as[k]? = some x → P (i + 1 + k) x := by
  constructor
  · refine fun h => ⟨h 0 a rfl, fun k x hx => ?_⟩
    have hnext := h (k + 1) x hx
    rwa [← Nat.add_assoc, Nat.add_right_comm] at hnext
  · rintro ⟨hfirst, hrest⟩ k x hx
    cases k with
    | zero =>
        cases hx
        exact hfirst
    | succ k =>
        have hnext := hrest k x hx
        rwa [Nat.add_right_comm, Nat.add_assoc] at hnext

/-- **An exact decoder a number of times** is exact for that many values, each under the
condition of its place. -/
theorem Exact.times {read : ℕ → ℕ → Option (α × ℕ)} {count i : ℕ} {Ok : ℕ → α → Prop}
    (h : ∀ j, i ≤ j → j < i + count → Exact m enc (Ok j) (read j)) :
    Exact m (fun as : List α => as.flatMap enc)
      (fun as => as.length = count ∧ ∀ k a, as[k]? = some a → Ok (i + k) a)
      (times read count i) := by
  induction count generalizing i with
  | zero =>
      refine ⟨?_, ?_⟩
      · rintro p as ⟨hlen, -⟩ -
        obtain rfl := List.eq_nil_of_length_eq_zero hlen
        rfl
      · rintro p as q hread
        obtain ⟨rfl, rfl⟩ := Prod.mk.inj (Option.some.inj hread)
        exact ⟨by simp, holds_nil, by simp⟩
  | succ count ih =>
      have hfirst := h i le_rfl (by omega)
      have hrest := @ih (i + 1) fun j hj hlt => h j (by omega) (by omega)
      refine ⟨?_, ?_⟩
      · rintro p as ⟨hlen, hall⟩ hholds
        cases as with
        | nil => cases hlen
        | cons a as =>
            rw [forall_getElem?_cons] at hall
            rw [List.flatMap_cons] at hholds
            obtain ⟨hholds₁, hholds₂⟩ := holds_append.mp hholds
            have hlater := hrest.reads ⟨Nat.succ.inj hlen, hall.2⟩ hholds₂
            rw [Mem.times, hfirst.reads hall.1 hholds₁]
            simp only [Option.bind_eq_bind, Option.bind_some, hlater, List.flatMap_cons,
              List.length_append, Nat.add_assoc]
      · rintro p as q hread
        obtain ⟨⟨a, q₁⟩, hread₁, hread⟩ := Option.bind_eq_some_iff.mp hread
        obtain ⟨⟨as', q₂⟩, hread₂, hread⟩ := Option.bind_eq_some_iff.mp hread
        obtain ⟨rfl, rfl⟩ := Prod.mk.inj (Option.some.inj hread)
        obtain ⟨hok, hholds, rfl⟩ := hfirst.holds hread₁
        obtain ⟨⟨hlen, hall⟩, hholds', rfl⟩ := hrest.holds hread₂
        refine ⟨⟨by rw [List.length_cons, hlen], forall_getElem?_cons.mpr ⟨hok, hall⟩⟩, ?_, ?_⟩
        · exact List.flatMap_cons ▸ holds_append.mpr ⟨hholds, hholds'⟩
        · rw [List.flatMap_cons, List.length_append, Nat.add_assoc]

/-- The contents and what lies behind them. -/
theorem Holds.drop_eq {xs : List β} {p : ℕ} (h : Holds m p xs) :
    m.drop p = xs ++ m.drop (p + xs.length) := by
  obtain ⟨t, ht⟩ := h
  rw [← List.drop_drop, ← ht, List.drop_left]

/-- Only nothing fills the end of the block. -/
theorem eq_nil_of_end {p : ℕ} {as : List α} (hne : ∀ a, Ok a → enc a ≠ []) (hp : m.length ≤ p) :
    (∀ a ∈ as, Ok a) ∧ m.drop p = as.flatMap enc ↔ as = [] := by
  rw [List.drop_eq_nil_of_le hp]
  constructor
  · rintro ⟨hall, hnil⟩
    cases as with
    | nil => rfl
    | cons a as =>
        rw [List.forall_mem_cons] at hall
        exact absurd (List.append_eq_nil_iff.mp hnil.symm).1 (hne a hall.1)
  · rintro rfl
    simp

/-- **An exact decoder up to the end of the block** returns what fills the block, if it
has rounds enough and its values are not empty. -/
theorem Exact.upTo {stop rounds p q : ℕ} {as : List α} (h : Exact m enc Ok read)
    (hne : ∀ a, Ok a → enc a ≠ []) (hstop : m.length = stop) (hp : p ≤ stop)
    (hrounds : stop ≤ p + rounds) :
    upTo read stop rounds p = some (as, q) ↔
      ((∀ a ∈ as, Ok a) ∧ m.drop p = as.flatMap enc) ∧ q = stop := by
  have hend : ∀ p as, p = stop → (some (([] : List α), p) = some (as, q) ↔
      ((∀ a ∈ as, Ok a) ∧ m.drop p = as.flatMap enc) ∧ q = stop) := by
    intro p as hpos
    rw [eq_nil_of_end hne (by omega), Option.some_inj, Prod.mk.injEq, hpos, eq_comm (a := []),
      eq_comm (a := stop)]
  induction rounds generalizing p as with
  | zero => rw [Mem.upTo, if_pos (by omega), hend p as (by omega)]
  | succ rounds ih =>
      by_cases hpos : stop ≤ p
      · rw [Mem.upTo, if_pos (by omega), hend p as (by omega)]
      rw [Mem.upTo, if_neg (by omega)]
      -- what a turn reads is not empty and lies inside, so the rest has rounds enough
      have hturn : ∀ a, Ok a → Holds m p (enc a) → ∀ as',
          Mem.upTo read stop rounds (p + (enc a).length) = some (as', q) ↔
            ((∀ a ∈ as', Ok a) ∧ m.drop (p + (enc a).length) = as'.flatMap enc) ∧ q = stop := by
        intro a hok hholds as'
        have hin := hholds.bound (hne a hok)
        have hlen := List.length_pos_of_ne_nil (hne a hok)
        exact ih (by omega) (by omega)
      constructor
      · intro hread
        obtain ⟨⟨a, q₁⟩, hfirst, hread⟩ := Option.bind_eq_some_iff.mp hread
        obtain ⟨⟨as', q₂⟩, hrest, hread⟩ := Option.bind_eq_some_iff.mp hread
        obtain ⟨rfl, rfl⟩ := Prod.mk.inj (Option.some.inj hread)
        obtain ⟨hok, hholds, rfl⟩ := h.holds hfirst
        obtain ⟨⟨hall, hdrop⟩, hq⟩ := (hturn a hok hholds as').mp hrest
        refine ⟨⟨List.forall_mem_cons.mpr ⟨hok, hall⟩, ?_⟩, hq⟩
        rw [hholds.drop_eq, hdrop, List.flatMap_cons]
      · rintro ⟨⟨hall, hdrop⟩, hq⟩
        cases as with
        | nil =>
            rw [List.flatMap_nil, List.drop_eq_nil_iff] at hdrop
            omega
        | cons a as' =>
            rw [List.forall_mem_cons] at hall
            rw [List.flatMap_cons] at hdrop
            have hholds : Holds m p (enc a) := ⟨_, hdrop.symm⟩
            have hrest := hholds.drop_eq.symm.trans hdrop
            have hlater := (hturn a hall.1 hholds as').mpr
              ⟨⟨hall.2, List.append_cancel_left hrest⟩, hq⟩
            simp only [h.reads hall.1 hholds, Option.bind_eq_bind, Option.bind_some, hlater]

end Mem
