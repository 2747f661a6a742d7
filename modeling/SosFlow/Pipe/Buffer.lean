import SosFlow.Lib.Cyclic
import Mathlib.Data.Nat.Bits
import Mathlib.Data.Nat.Log
import Mathlib.Tactic.Ring

/-!
# The buffer of a pipe

Every queue of the daemon is a `pipe_t`: a buffer of bytes that is read and
written around its end. `begin` points at a sentinel in front of the oldest
element, `end` behind the newest, and one element's room stays free so that
a full pipe is told from an empty one.

The functions here are the parts of `sos_pipe.c` that compute: on a
snapshot of the pointers, or on the whole pipe where both locks are held.
A pointer is its distance from `buffer`, and `block` tells one `malloc` of
the buffer from the next. The bytes in use are `contents`, the window from
the first element on, and each pointer moves by what is pushed or popped,
around the end: `bytesInUse_push`, `bytesInUse_pop`.
-/

namespace SosFlow

open Cyclic

/-- `DEFAULT_MINCAP`. -/
def defaultMincap : ℕ := 10000000

/-- **`pipe_t`**, without its handles and locks. A cell that nothing was written to
is `none`. -/
structure PipeT (α : Type) where
  elemSize : ℕ
  minCap : ℕ
  maxCap : ℕ
  block : ℕ
  buffer : List (Option α)
  beginPtr : ℕ
  endPtr : ℕ
deriving DecidableEq

/-- `snapshot_t`. -/
structure PipeSnapshot where
  block : ℕ
  bufend : ℕ
  beginPtr : ℕ
  endPtr : ℕ
  elemSize : ℕ
deriving DecidableEq

/-- `wrap_ptr_if_necessary`. -/
def wrapPtrIfNecessary (p bufend : ℕ) : ℕ := if bufend ≤ p then p - bufend else p

/-- `rev_wrap_ptr_if_necessary`, of a pointer that may lie in front of the buffer. -/
def revWrapPtrIfNecessary (p : ℤ) (bufend : ℕ) : ℕ :=
  if p < 0 then bufend - (-p).toNat else p.toNat

/-- `next_pow2`, with a `size_t` of 64 bits. -/
def nextPow2 (n : ℕ) : ℕ :=
  if 2 ^ 63 ≤ n then n
  else [1, 2, 4, 8, 16, 32].foldl (fun n shift => n ||| n >>> shift) (n - 1) + 1

namespace PipeSnapshot

variable (s : PipeSnapshot)

/-- `capacity`. -/
def capacity : ℕ := s.bufend - s.elemSize

/-- `wraps_around`. -/
def WrapsAround : Prop := s.endPtr ≤ s.beginPtr

instance : Decidable s.WrapsAround := inferInstanceAs (Decidable (s.endPtr ≤ s.beginPtr))

/-- `bytes_in_use`. -/
def bytesInUse : ℕ :=
  (if s.WrapsAround then s.endPtr + (s.bufend - s.beginPtr) else s.endPtr - s.beginPtr) -
    s.elemSize

/-- The cells that one `memcpy` into the buffer writes, in their order. -/
def memcpyTo {α : Type} (dest : ℕ) (xs : List α) : List (ℕ × α) :=
  (List.range' dest xs.length).zip xs

/-- **`process_push`**: the cells it writes, and the new `end`. -/
def processPush {α : Type} (elems : List α) : List (ℕ × α) × ℕ :=
  let atEnd := if s.WrapsAround then 0 else min elems.length (s.bufend - s.endPtr)
  let front := memcpyTo s.endPtr (elems.take atEnd)
  let rest := elems.drop atEnd
  let dest := wrapPtrIfNecessary (s.endPtr + atEnd) s.bufend
  if rest = [] then (front, dest)
  else (front ++ memcpyTo dest rest, wrapPtrIfNecessary (dest + rest.length) s.bufend)

/-- **`pop_without_locking`**: the cells it reads, and the new `begin`. -/
def popWithoutLocking (bytesToCopy : ℕ) : List ℕ × ℕ :=
  let first := min bytesToCopy (s.bufend - s.beginPtr - s.elemSize)
  let front := List.range' (s.beginPtr + s.elemSize) first
  let beginPtr := wrapPtrIfNecessary (s.beginPtr + first) s.bufend
  let rest := bytesToCopy - first
  if rest = 0 then (front, beginPtr)
  else
    let src := wrapPtrIfNecessary (beginPtr + s.elemSize) s.bufend
    let beginPtr := (wrapPtrIfNecessary (src + rest) s.bufend : ℤ) - s.elemSize
    (front ++ List.range' src rest, revWrapPtrIfNecessary beginPtr s.bufend)

end PipeSnapshot

namespace PipeT

variable {α : Type}

/-- `make_snapshot`. -/
def makeSnapshot (p : PipeT α) : PipeSnapshot :=
  ⟨p.block, p.buffer.length, p.beginPtr, p.endPtr, p.elemSize⟩

/-- `bytes_in_use` of the pipe as it is. -/
def bytesInUse (p : PipeT α) : ℕ := p.makeSnapshot.bytesInUse

/-- `capacity` of the pipe as it is. -/
def capacity (p : PipeT α) : ℕ := p.makeSnapshot.capacity

/-- `pipe_new`, for a `DEFAULT_MINCAP` of `mincap`. -/
def pipeNew (α : Type) (mincap elemSize limit : ℕ) : Option (PipeT α) :=
  if elemSize = 0 then none
  else
    let cap := mincap * elemSize
    let limit := (limit + 1) * elemSize % 2 ^ 64
    some {
      elemSize
      minCap := cap
      maxCap := if limit ≠ 0 then nextPow2 (max limit cap) else 2 ^ 64 - 1
      block := 0
      buffer := List.replicate cap none
      beginPtr := 0
      endPtr := elemSize }

/-- `copy_pipe_into_new_buf`: what it copies. -/
def copyPipeIntoNewBuf (p : PipeT α) : List (Option α) :=
  if p.makeSnapshot.WrapsAround then p.buffer.drop p.beginPtr ++ p.buffer.take p.endPtr
  else (p.buffer.drop p.beginPtr).take (p.endPtr - p.beginPtr)

/-- **`resize_buffer`**, or nothing where the copy does not fit into the new buffer. -/
def resizeBuffer (p : PipeT α) (newSize : ℕ) : Option (PipeT α) :=
  let newSize := if p.maxCap ≤ newSize then p.maxCap else newSize
  if newSize ≤ p.minCap then some p
  else
    let copied := p.copyPipeIntoNewBuf
    if copied.length ≤ newSize + p.elemSize then
      some { p with
        block := p.block + 1
        buffer := copied ++ List.replicate (newSize + p.elemSize - copied.length) none
        beginPtr := 0
        endPtr := copied.length }
    else none

/-- The part of `validate_size` under both locks: it looks again, and resizes. -/
def growFor (p : PipeT α) (newBytes : ℕ) : Option (PipeT α) :=
  if p.capacity < p.bytesInUse + newBytes then
    p.resizeBuffer (nextPow2 ((p.bytesInUse + newBytes) / p.elemSize) * p.elemSize)
  else some p

/-- The part of `trim_buffer` under both locks. -/
def trim (p : PipeT α) : Option (PipeT α) :=
  if p.bytesInUse ≤ p.capacity / 4 then p.resizeBuffer (p.capacity / 2) else some p

/-- The last assertion of `check_invariants`, which is about the size of the buffer. -/
def SizeAsserted (p : PipeT α) : Prop :=
  p.minCap ≤ p.capacity + p.elemSize ∧ p.capacity + p.elemSize ≤ p.maxCap

instance (p : PipeT α) : Decidable p.SizeAsserted := by
  unfold SizeAsserted
  infer_instance

/-- The bytes in use, oldest first. -/
def contents (p : PipeT α) : List (Option α) :=
  window p.buffer (p.beginPtr + p.elemSize) p.bytesInUse

end PipeT

/-! ## The pointers -/

/-- A multiple of the element size that is less than another is less by an element. -/
theorem add_le_of_dvd_of_lt {e a b : ℕ} (ha : e ∣ a) (hb : e ∣ b) (h : a < b) : a + e ≤ b := by
  obtain ⟨i, rfl⟩ := ha
  obtain ⟨j, rfl⟩ := hb
  have hij : i + 1 ≤ j := Nat.lt_of_mul_lt_mul_left h
  calc e * i + e = e * (i + 1) := by ring
    _ ≤ e * j := Nat.mul_le_mul_left e hij

/-- Wrapping a pointer that went around once is taking its remainder. -/
theorem wrapPtrIfNecessary_eq_mod {p bufend : ℕ} (h : p < bufend + bufend) :
    wrapPtrIfNecessary p bufend = p % bufend := by
  unfold wrapPtrIfNecessary
  split
  case isTrue hle => rw [Nat.mod_eq_sub_mod hle, Nat.mod_eq_of_lt (by omega)]
  case isFalse hlt => rw [Nat.mod_eq_of_lt (by omega)]

/-- **A snapshot whose pointers lie in the buffer**, at whole elements. -/
structure PipeSnapshot.Placed (s : PipeSnapshot) : Prop where
  elem_pos : 0 < s.elemSize
  dvd_bufend : s.elemSize ∣ s.bufend
  dvd_begin : s.elemSize ∣ s.beginPtr
  dvd_end : s.elemSize ∣ s.endPtr
  begin_lt : s.beginPtr < s.bufend
  end_lt : s.endPtr < s.bufend

namespace PipeSnapshot.Placed

variable {s : PipeSnapshot} (h : s.Placed) {n : ℕ}

include h

theorem begin_add_le : s.beginPtr + s.elemSize ≤ s.bufend :=
  add_le_of_dvd_of_lt h.dvd_begin h.dvd_bufend h.begin_lt

/-- The distance from `begin` to `end`, around the end of the buffer. -/
theorem bytesInUse_add :
    s.beginPtr + (s.bytesInUse + s.elemSize) =
      if s.WrapsAround then s.endPtr + s.bufend else s.endPtr := by
  have hbegin := h.begin_add_le
  rw [bytesInUse]
  by_cases hwrap : s.WrapsAround
  · rw [if_pos hwrap, if_pos hwrap]
    omega
  · have hlt : s.beginPtr < s.endPtr := Nat.not_le.mp hwrap
    have hend := add_le_of_dvd_of_lt h.dvd_begin h.dvd_end hlt
    rw [if_neg hwrap, if_neg hwrap]
    omega

/-- **There is never more in the buffer than it has room for.** -/
theorem bytesInUse_le : s.bytesInUse ≤ s.capacity := by
  have hadd := h.bytesInUse_add
  have hlt := h.begin_lt
  have hend := h.end_lt
  rw [capacity]
  by_cases hwrap : s.WrapsAround
  · have hle : s.endPtr ≤ s.beginPtr := hwrap
    rw [if_pos hwrap] at hadd
    omega
  · rw [if_neg hwrap] at hadd
    omega

/-- `end` is as far behind the first element as there are bytes in use. -/
theorem end_eq : s.endPtr = (s.beginPtr + s.elemSize + s.bytesInUse) % s.bufend := by
  have hadd := h.bytesInUse_add
  have hlt := h.end_lt
  have hsum : s.beginPtr + s.elemSize + s.bytesInUse =
      s.beginPtr + (s.bytesInUse + s.elemSize) := by omega
  rw [hsum, hadd]
  split
  · rw [Nat.add_mod_right, Nat.mod_eq_of_lt hlt]
  · rw [Nat.mod_eq_of_lt hlt]

/-- The bytes in use are the only number that says where `end` is. -/
theorem bytesInUse_unique (hcap : n ≤ s.capacity)
    (hend : s.endPtr = (s.beginPtr + s.elemSize + n) % s.bufend) : s.bytesInUse = n := by
  have hle := h.bytesInUse_le
  have hpos := h.elem_pos
  have hbegin := h.begin_add_le
  unfold capacity at hle hcap
  have hlt : s.bytesInUse < s.bufend := by omega
  exact mod_inj hlt (by omega) (h.end_eq.symm.trans hend)

theorem dvd_bytesInUse : s.elemSize ∣ s.bytesInUse := by
  have hadd := h.bytesInUse_add
  have hsum : s.elemSize ∣ s.beginPtr + (s.bytesInUse + s.elemSize) := by
    rw [hadd]
    split
    · exact Nat.dvd_add h.dvd_end h.dvd_bufend
    · exact h.dvd_end
  exact (Nat.dvd_add_left (Nat.dvd_refl _)).mp ((Nat.dvd_add_right h.dvd_begin).mp hsum)

theorem dvd_capacity : s.elemSize ∣ s.capacity := Nat.dvd_sub h.dvd_bufend (Nat.dvd_refl _)

theorem dvd_mod (hn : s.elemSize ∣ n) : s.elemSize ∣ n % s.bufend :=
  (Nat.dvd_mod_iff h.dvd_bufend).mpr hn

/-- **A push moves `end`** and leaves the pointers in the buffer. -/
theorem pushed (hn : s.elemSize ∣ n) :
    Placed { s with endPtr := (s.endPtr + n) % s.bufend } where
  elem_pos := h.elem_pos
  dvd_bufend := h.dvd_bufend
  dvd_begin := h.dvd_begin
  dvd_end := h.dvd_mod (Nat.dvd_add h.dvd_end hn)
  begin_lt := h.begin_lt
  end_lt := Nat.mod_lt _ (Nat.zero_lt_of_lt h.end_lt)

/-- **There are as many bytes more** as were pushed. -/
theorem bytesInUse_pushed (hn : s.elemSize ∣ n) (hroom : s.bytesInUse + n ≤ s.capacity) :
    bytesInUse { s with endPtr := (s.endPtr + n) % s.bufend } = s.bytesInUse + n := by
  refine (h.pushed hn).bytesInUse_unique hroom ?_
  show (s.endPtr + n) % s.bufend = (s.beginPtr + s.elemSize + (s.bytesInUse + n)) % s.bufend
  rw [h.end_eq, Nat.mod_add_mod, Nat.add_assoc]

/-- **A pop moves `begin`** and leaves the pointers in the buffer. -/
theorem popped (hn : s.elemSize ∣ n) :
    Placed { s with beginPtr := (s.beginPtr + n) % s.bufend } where
  elem_pos := h.elem_pos
  dvd_bufend := h.dvd_bufend
  dvd_begin := h.dvd_mod (Nat.dvd_add h.dvd_begin hn)
  dvd_end := h.dvd_end
  begin_lt := Nat.mod_lt _ (Nat.zero_lt_of_lt h.begin_lt)
  end_lt := h.end_lt

/-- **There are as many bytes less** as were popped. -/
theorem bytesInUse_popped (hn : s.elemSize ∣ n) (hle : n ≤ s.bytesInUse) :
    bytesInUse { s with beginPtr := (s.beginPtr + n) % s.bufend } = s.bytesInUse - n := by
  have hcap := h.bytesInUse_le
  refine (h.popped hn).bytesInUse_unique (Nat.le_trans (Nat.sub_le _ _) hcap) ?_
  show s.endPtr = ((s.beginPtr + n) % s.bufend + s.elemSize + (s.bytesInUse - n)) % s.bufend
  have hsum : s.beginPtr + n + (s.elemSize + (s.bytesInUse - n)) =
      s.beginPtr + s.elemSize + s.bytesInUse := by omega
  rw [Nat.add_assoc, Nat.mod_add_mod, hsum, ← h.end_eq]

/-! ### What is written and read -/

/-- **What a push writes** are the places behind `end`, around the end of the
buffer, when there is room. -/
theorem processPush_eq {α : Type} {elems : List α}
    (hroom : s.bytesInUse + elems.length ≤ s.capacity) :
    s.processPush elems =
      ((places s.endPtr s.bufend elems.length).zip elems,
        (s.endPtr + elems.length) % s.bufend) := by
  have hadd := h.bytesInUse_add
  have hbegin := h.begin_lt
  have hend := h.end_lt
  rw [capacity] at hroom
  simp only [processPush, memcpyTo, List.length_take, List.length_drop]
  by_cases hwrap : s.WrapsAround
  -- the free places are one piece, from `end` to `begin`
  · rw [if_pos hwrap] at hadd
    have hle : s.endPtr ≤ s.beginPtr := hwrap
    rw [if_pos hwrap, List.drop_zero, List.take_zero, List.zip_nil_right, Nat.add_zero,
      Nat.sub_zero, List.nil_append, wrapPtrIfNecessary_eq_mod (by omega),
      Nat.mod_eq_of_lt (by omega), wrapPtrIfNecessary_eq_mod (by omega),
      places_eq_range' (by omega)]
    split
    case isTrue hnil => rw [hnil, List.zip_nil_right, List.length_nil, Nat.add_zero,
      Nat.mod_eq_of_lt hend]
    case isFalse => rfl
  · rw [if_neg hwrap] at hadd ⊢
    by_cases hfits : elems.length ≤ s.bufend - s.endPtr
    · rw [Nat.min_eq_left hfits, List.drop_length, if_pos rfl, List.take_length, Nat.min_self,
        places_eq_range' (by omega), wrapPtrIfNecessary_eq_mod (by omega)]
    -- they go around the end, and so do two calls of `memcpy`
    · have hrest : elems.drop (s.bufend - s.endPtr) ≠ [] := by
        rw [Ne, List.drop_eq_nil_iff]
        omega
      have hdest : wrapPtrIfNecessary (s.endPtr + (s.bufend - s.endPtr)) s.bufend = 0 := by
        rw [Nat.add_sub_cancel' hend.le, wrapPtrIfNecessary_eq_mod (by omega), Nat.mod_self]
      rw [Nat.min_eq_right (by omega), if_neg hrest, hdest, Nat.min_eq_left (by omega),
        places_eq_append (by omega) hend.le (by omega),
        wrapPtrIfNecessary_eq_mod (by omega)]
      have hcount : elems.length - (s.bufend - s.endPtr) =
          s.endPtr + elems.length - s.bufend := by omega
      refine Prod.ext ?_ ?_
      · rw [hcount, ← List.zip_append (by rw [List.length_range', List.length_take]; omega),
          List.take_append_drop]
      · show (0 + (elems.length - (s.bufend - s.endPtr))) % s.bufend = _
        rw [Nat.mod_eq_sub_mod (by omega : s.bufend ≤ s.endPtr + elems.length), hcount,
          Nat.zero_add]

/-- **What a pop reads** are the places behind the sentinel, around the end of the
buffer, when so much is in use. -/
theorem popWithoutLocking_eq (hn : s.elemSize ∣ n) (hle : n ≤ s.bytesInUse) :
    s.popWithoutLocking n =
      (places (s.beginPtr + s.elemSize) s.bufend n, (s.beginPtr + n) % s.bufend) := by
  have hcap := h.bytesInUse_le
  have hpos := h.elem_pos
  have hbegin := h.begin_add_le
  rw [capacity] at hcap
  simp only [popWithoutLocking]
  by_cases hfits : n ≤ s.bufend - s.beginPtr - s.elemSize
  · rw [Nat.min_eq_left hfits, Nat.sub_self, if_pos rfl, places_eq_range' (by omega),
      wrapPtrIfNecessary_eq_mod (by omega)]
  -- the sentinel is the last element of the buffer when the first piece is read
  · have hrest : n - (s.bufend - s.beginPtr - s.elemSize) ≠ 0 := by omega
    have hlast : wrapPtrIfNecessary
        (s.beginPtr + (s.bufend - s.beginPtr - s.elemSize)) s.bufend =
          s.bufend - s.elemSize := by
      rw [wrapPtrIfNecessary_eq_mod (by omega), Nat.mod_eq_of_lt (by omega)]
      omega
    have hsrc : wrapPtrIfNecessary (s.bufend - s.elemSize + s.elemSize) s.bufend = 0 := by
      rw [Nat.sub_add_cancel (by omega), wrapPtrIfNecessary_eq_mod (by omega), Nat.mod_self]
    have hdvd : s.elemSize ∣ n - (s.bufend - s.beginPtr - s.elemSize) :=
      Nat.dvd_sub hn (Nat.dvd_sub (Nat.dvd_sub h.dvd_bufend h.dvd_begin) (Nat.dvd_refl _))
    have helem := Nat.le_of_dvd (Nat.pos_of_ne_zero hrest) hdvd
    rw [Nat.min_eq_right (by omega), if_neg hrest, hlast, hsrc,
      places_eq_append (by omega) hbegin (by omega), wrapPtrIfNecessary_eq_mod (by omega),
      Nat.mod_eq_of_lt (by omega)]
    refine Prod.ext ?_ ?_
    · show List.range' (s.beginPtr + s.elemSize) (s.bufend - s.beginPtr - s.elemSize) ++
        List.range' 0 (n - (s.bufend - s.beginPtr - s.elemSize)) = _
      congr 2 <;> omega
    · show revWrapPtrIfNecessary _ s.bufend = _
      rw [Nat.mod_eq_sub_mod (by omega : s.bufend ≤ s.beginPtr + n), Nat.mod_eq_of_lt (by omega),
        revWrapPtrIfNecessary, if_neg (by omega)]
      omega

end PipeSnapshot.Placed

end SosFlow
