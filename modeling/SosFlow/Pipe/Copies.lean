import SosFlow.Pipe.Threads

/-!
# What a thread at a pipe may rely on

A thread that is in the middle of a copy knows how far it has come, and that
there is room for the rest, or that the rest is there (`PipePos.Ok`).

A push moves only `end` and writes only behind it, which a pop does not look
at (`Appends`); a pop moves only `begin` and writes nothing (`Removes`). So
what a thread knows while it holds one of the locks stays true while the
other lock's holder moves on.
-/

namespace SosFlow

open Cyclic

variable {α : Type}

namespace PipeT

variable {p p' : PipeT α}

/-- **A push may change so much**: what is in use is still so, and there is more. -/
structure Appends (p p' : PipeT α) : Prop where
  block : p'.block = p.block
  elemSize : p'.elemSize = p.elemSize
  maxCap : p'.maxCap = p.maxCap
  length : p'.buffer.length = p.buffer.length
  beginPtr : p'.beginPtr = p.beginPtr
  used : p.bytesInUse ≤ p'.bytesInUse
  window : ∀ k ≤ p.bytesInUse, window p'.buffer (p.beginPtr + p.elemSize) k =
    window p.buffer (p.beginPtr + p.elemSize) k

/-- **A pop may change so much**: there is less in use. -/
structure Removes (p p' : PipeT α) : Prop where
  block : p'.block = p.block
  elemSize : p'.elemSize = p.elemSize
  maxCap : p'.maxCap = p.maxCap
  buffer : p'.buffer = p.buffer
  endPtr : p'.endPtr = p.endPtr
  used : p'.bytesInUse ≤ p.bytesInUse

/-- **A push that is copying** has copied `now` in part, behind `end`, and has room
for the rest. -/
structure Writing (p : PipeT α) (todo : List (ℕ × α)) (s : PipeSnapshot) (now : List α) :
    Prop where
  block : s.block = p.block
  dvd : p.elemSize ∣ now.length
  room : p.bytesInUse + now.length ≤ p.capacity
  endPtr : s.endPtr = (p.endPtr + now.length) % p.buffer.length
  copied : ∃ done undone, now = done ++ undone ∧
    todo = (places (p.endPtr + done.length) p.buffer.length undone.length).zip undone ∧
      window p.buffer p.endPtr done.length = done.map some

/-- **A pop that is copying** has copied the first of the bytes in use, and is to
copy no more than there are. -/
structure Reading (p : PipeT α) (todo : List ℕ) (got : List α) (s : PipeSnapshot) : Prop where
  block : s.block = p.block
  dvd : p.elemSize ∣ got.length + todo.length
  used : got.length + todo.length ≤ p.bytesInUse
  beginPtr : s.beginPtr = (p.beginPtr + (got.length + todo.length)) % p.buffer.length
  todo : todo = places (p.beginPtr + p.elemSize + got.length) p.buffer.length todo.length
  copied : window p.buffer (p.beginPtr + p.elemSize) got.length = got.map some

end PipeT

/-- **What a thread may rely on**, where it is. -/
def PipePos.Ok (p : PipeT α) : PipePos α → Prop
  | .returned => True
  | .pushLock elems => p.elemSize ∣ elems.length
  | .pushTest elems => p.elemSize ∣ elems.length
  | .pushWait elems => p.elemSize ∣ elems.length
  | .pushAsleep elems => p.elemSize ∣ elems.length
  | .pushGrowLock elems => p.elemSize ∣ elems.length ∧ p.bytesInUse < p.maxCap
  | .pushGrow elems => p.elemSize ∣ elems.length ∧ p.bytesInUse < p.maxCap
  | .pushCopy todo s now rest => p.Writing todo s now ∧ p.elemSize ∣ rest.length
  | .pushSignal _ rest => p.elemSize ∣ rest.length
  | .popLock left _ => p.elemSize ∣ left
  | .popTest left _ => p.elemSize ∣ left
  | .popWait left _ => p.elemSize ∣ left
  | .popAsleep left _ => p.elemSize ∣ left
  | .popCopy todo got s left _ => p.Reading todo got s ∧ p.elemSize ∣ left
  | .popTrimEnd _ left _ => p.elemSize ∣ left
  | .popTrimBegin _ left _ => p.elemSize ∣ left
  | .popTrim _ left _ => p.elemSize ∣ left
  | .popSignal _ left _ => p.elemSize ∣ left
  | .fault => False

/-- A call is for whole elements. -/
def PipeCall.Whole (elemSize : ℕ) : PipeCall α → Prop
  | .pipePush elems => elemSize ∣ elems.length
  | .pipePop _ => True
  | .pipePopEager _ => True

namespace PipePos

variable {p p' : PipeT α} {pos : PipePos α}

/-- **A pop goes on** beside a push. -/
theorem Ok.appends (h : pos.Ok p) (hstep : p.Appends p') (hfree : ¬ pos.HoldsEnd) : pos.Ok p' := by
  cases pos with
  | popCopy todo got s left eager =>
      obtain ⟨hread, hleft⟩ := h
      refine ⟨?_, hstep.elemSize ▸ hleft⟩
      have hused := hread.used
      exact
        { block := hread.block.trans hstep.block.symm
          dvd := hstep.elemSize ▸ hread.dvd
          used := Nat.le_trans hused hstep.used
          beginPtr := by rw [hstep.beginPtr, hstep.length, hread.beginPtr]
          todo := by rw [hstep.beginPtr, hstep.elemSize, hstep.length, ← hread.todo]
          copied := by
            rw [hstep.beginPtr, hstep.elemSize, hstep.window _ (by omega), hread.copied] }
  | returned => trivial
  | fault => exact h.elim
  | pushTest => exact absurd trivial hfree
  | pushWait => exact absurd trivial hfree
  | pushGrowLock => exact absurd trivial hfree
  | pushGrow => exact absurd trivial hfree
  | pushCopy => exact absurd trivial hfree
  | _ => exact (dvd_of_eq hstep.elemSize).trans h

/-- **A push goes on** beside a pop. -/
theorem Ok.removes (h : pos.Ok p) (hstep : p.Removes p') (hfree : ¬ pos.HoldsBegin) :
    pos.Ok p' := by
  cases pos with
  | pushCopy todo s now rest =>
      obtain ⟨hwrite, hrest⟩ := h
      refine ⟨?_, hstep.elemSize ▸ hrest⟩
      have hroom := hwrite.room
      have hused := hstep.used
      have hcapacity : p'.capacity = p.capacity := by
        show p'.buffer.length - p'.elemSize = p.buffer.length - p.elemSize
        rw [hstep.buffer, hstep.elemSize]
      exact
        { block := hwrite.block.trans hstep.block.symm
          dvd := hstep.elemSize ▸ hwrite.dvd
          room := by omega
          endPtr := by rw [hstep.endPtr, hstep.buffer, hwrite.endPtr]
          copied := by
            rw [hstep.endPtr, hstep.buffer]
            exact hwrite.copied }
  | pushGrowLock elems =>
      exact ⟨hstep.elemSize ▸ h.1, hstep.maxCap ▸ Nat.lt_of_le_of_lt hstep.used h.2⟩
  | pushGrow => exact absurd trivial hfree
  | returned => trivial
  | fault => exact h.elim
  | popTest => exact absurd trivial hfree
  | popWait => exact absurd trivial hfree
  | popCopy => exact absurd trivial hfree
  | popTrim => exact absurd trivial hfree
  | _ => exact (dvd_of_eq hstep.elemSize).trans h

/-- **A thread without a lock** does not mind a resize. -/
theorem Ok.resized (h : pos.Ok p) (helem : p'.elemSize = p.elemSize) (hend : ¬ pos.HoldsEnd)
    (hbegin : ¬ pos.HoldsBegin) : pos.Ok p' := by
  cases pos with
  | returned => trivial
  | fault => exact h.elim
  | pushTest => exact absurd trivial hend
  | pushWait => exact absurd trivial hend
  | pushGrowLock => exact absurd trivial hend
  | pushGrow => exact absurd trivial hend
  | pushCopy => exact absurd trivial hend
  | popTrimBegin => exact absurd trivial hend
  | popTest => exact absurd trivial hbegin
  | popWait => exact absurd trivial hbegin
  | popCopy => exact absurd trivial hbegin
  | popTrim => exact absurd trivial hbegin
  | _ => exact (dvd_of_eq helem).trans h

end PipePos

/-! ## What the copies do -/

namespace PipeT

variable {p : PipeT α}

/-- Whole elements, cut to whole elements. -/
theorem dvd_min_of_dvd {e a b : ℕ} (ha : e ∣ a) (hb : e ∣ b) : e ∣ min a b := by
  rcases Nat.le_total a b with hle | hle
  · rw [Nat.min_eq_left hle]
    exact ha
  · rw [Nat.min_eq_right hle]
    exact hb

/-- A push, by how much of it is copied at once. -/
theorem pushPlan_eq {elems : List α} {n : ℕ}
    (hn : n = min elems.length (p.maxCap - p.bytesInUse)) :
    p.pushPlan elems = .pushCopy (p.makeSnapshot.processPush (elems.take n)).1
      { p.makeSnapshot with endPtr := (p.makeSnapshot.processPush (elems.take n)).2 }
      (elems.take n) (elems.drop n) := by
  subst hn
  rfl

/-- A pop, by how much of it is copied at once. -/
theorem popPlan_eq {left n : ℕ} {eager : Bool} (hn : n = min left p.bytesInUse) :
    p.popPlan left eager = .popCopy (p.makeSnapshot.popWithoutLocking n).1 []
      { p.makeSnapshot with beginPtr := (p.makeSnapshot.popWithoutLocking n).2 } left eager := by
  subst hn
  rfl

/-- **A push begins to copy** what there is room for. -/
theorem Sound.pushPlan_ok (h : p.Sound) {elems : List α} (hdvd : p.elemSize ∣ elems.length)
    (hroom : min (p.bytesInUse + elems.length) p.maxCap ≤ p.capacity) :
    (p.pushPlan elems).Ok p := by
  obtain ⟨m, -, hm⟩ := h.max
  have hmax : p.elemSize ∣ p.maxCap := hm ▸ h.dvd_pow (hm ▸ h.min_lt)
  obtain ⟨n, hn⟩ : ∃ n, n = min elems.length (p.maxCap - p.bytesInUse) := ⟨_, rfl⟩
  have hpushed : p.elemSize ∣ n :=
    hn ▸ dvd_min_of_dvd hdvd (Nat.dvd_sub hmax h.placed.dvd_bytesInUse)
  have hlength : (elems.take n).length = n := by
    rw [List.length_take]
    omega
  have hfits : p.bytesInUse + (elems.take n).length ≤ p.capacity := by
    have hused := h.bytesInUse_le
    have hmaxle := h.capacity_le
    omega
  rw [pushPlan_eq hn, h.placed.processPush_eq hfits]
  refine ⟨?_, ?_⟩
  · exact
      { block := rfl
        dvd := by rw [hlength]; exact hpushed
        room := hfits
        endPtr := rfl
        copied := ⟨[], _, rfl, rfl, window_zero⟩ }
  · rw [List.length_drop]
    exact Nat.dvd_sub hdvd hpushed

/-- **A pop begins to copy** what is in use. -/
theorem Sound.popPlan_ok (h : p.Sound) {left : ℕ} {eager : Bool} (hdvd : p.elemSize ∣ left) :
    (p.popPlan left eager).Ok p := by
  obtain ⟨n, hn⟩ : ∃ n, n = min left p.bytesInUse := ⟨_, rfl⟩
  have hpopped : p.elemSize ∣ n := hn ▸ dvd_min_of_dvd hdvd h.placed.dvd_bytesInUse
  have hle : n ≤ p.bytesInUse := hn ▸ Nat.min_le_right _ _
  rw [popPlan_eq hn, h.placed.popWithoutLocking_eq hpopped hle]
  refine ⟨?_, hdvd⟩
  exact
    { block := rfl
      dvd := by rw [List.length_nil, Nat.zero_add, length_places]; exact hpopped
      used := by rw [List.length_nil, Nat.zero_add, length_places]; exact hle
      beginPtr := by rw [List.length_nil, Nat.zero_add, length_places]; rfl
      todo := by rw [length_places]; rfl
      copied := window_zero }

variable {a : ℕ} {x : α} {todo : List (ℕ × α)} {s : PipeSnapshot} {now : List α}

/-- **One byte of a push** lands in the buffer, behind everything in use. -/
theorem Sound.writeCell (h : p.Sound) (hw : p.Writing ((a, x) :: todo) s now) :
    a < p.buffer.length ∧
      Sound { p with buffer := p.buffer.set a (some x) } ∧
      p.Appends { p with buffer := p.buffer.set a (some x) } ∧
      Writing { p with buffer := p.buffer.set a (some x) } todo s now ∧
      contents { p with buffer := p.buffer.set a (some x) } = p.contents := by
  obtain ⟨done, undone, rfl, htodo, hdone⟩ := hw.copied
  cases undone with
  | nil => cases htodo
  | cons y undone =>
    rw [List.length_cons, places_succ, List.zip_cons_cons] at htodo
    obtain ⟨hhead, rfl⟩ := List.cons.inj htodo
    obtain ⟨rfl, rfl⟩ := Prod.mk.inj hhead
    have hlength := h.length_eq
    have hroom := hw.room
    have hused := h.bytesInUse_le
    have hpos : 0 < p.elemSize := h.placed.elem_pos
    rw [List.length_append, List.length_cons] at hroom
    -- the place is as far behind the first element as there are bytes in front of it
    have hplace : (p.endPtr + done.length) % p.buffer.length =
        (p.beginPtr + p.elemSize + (p.bytesInUse + done.length)) % p.buffer.length := by
      have hend : p.endPtr = (p.beginPtr + p.elemSize + p.bytesInUse) % p.buffer.length :=
        h.placed.end_eq
      rw [hend, Nat.mod_add_mod, Nat.add_assoc]
    let p' : PipeT α :=
      { p with buffer := p.buffer.set ((p.endPtr + done.length) % p.buffer.length) (some x) }
    have hlength' : p'.buffer.length = p.buffer.length := List.length_set
    have hsnap : p'.makeSnapshot = p.makeSnapshot := by
      simp only [makeSnapshot, hlength']
      rfl
    have hused' : p'.bytesInUse = p.bytesInUse := congrArg PipeSnapshot.bytesInUse hsnap
    have hcapacity' : p'.capacity = p.capacity := congrArg PipeSnapshot.capacity hsnap
    have hkeeps : ∀ k ≤ p.bytesInUse, window p'.buffer (p.beginPtr + p.elemSize) k =
        window p.buffer (p.beginPtr + p.elemSize) k := by
      intro k hk
      show window (p.buffer.set _ _) _ _ = _
      rw [hplace]
      exact window_set_of_le (by omega) (by omega)
    refine ⟨Nat.mod_lt _ (by omega), ?_, ?_, ?_, ?_⟩
    · exact
        { placed := hsnap ▸ h.placed
          elem := h.elem
          dvd_min := h.dvd_min
          min_pos := h.min_pos
          min_ne := h.min_ne
          max := h.max
          min_le := h.min_le
          capacity_le := hcapacity' ▸ h.capacity_le
          size := by
            show p'.buffer.length = p.minCap ∨ p.minCap < p'.capacity ∧ ∃ j, p'.capacity = 2 ^ j
            rw [hlength', hcapacity']
            exact h.size }
    · exact ⟨rfl, rfl, rfl, hlength', rfl, hused'.ge, hkeeps⟩
    · exact
        { block := hw.block
          dvd := hw.dvd
          room := by
            show p'.bytesInUse + _ ≤ p'.capacity
            rw [hused', hcapacity']
            exact hw.room
          endPtr := by
            show _ = _ % p'.buffer.length
            rw [hlength']
            exact hw.endPtr
          copied := by
            refine ⟨done ++ [x], undone, by rw [List.append_assoc]; rfl, ?_, ?_⟩
            · show _ = (places _ p'.buffer.length _).zip _
              rw [hlength', List.length_append, List.length_singleton, Nat.add_assoc]
            · show window (p.buffer.set _ _) p.endPtr _ = _
              rw [List.length_append, List.length_singleton, window_set_succ (by omega), hdone,
                List.map_append]
              rfl }
    · show window p'.buffer (p.beginPtr + p.elemSize) p'.bytesInUse = _
      rw [hused', hkeeps _ le_rfl]
      rfl

/-- **One byte of a pop** is there to be read. -/
theorem Reading.readCell {a : ℕ} {todo : List ℕ} {got queued : List α} (h : p.Sound)
    (hr : p.Reading (a :: todo) got s) (hqueued : p.contents = queued.map some) :
    ∃ x, p.buffer[a]? = some (some x) ∧ p.Reading todo (got ++ [x]) s := by
  have hused := hr.used
  have htodo := hr.todo
  have hle := h.bytesInUse_le
  have hlength := h.length_eq
  rw [List.length_cons] at hused htodo
  rw [places_succ] at htodo
  obtain ⟨rfl, hrest⟩ := List.cons.inj htodo
  have hcell : p.contents[got.length]? =
      p.buffer[(p.beginPtr + p.elemSize + got.length) % p.buffer.length]? :=
    getElem?_window (by omega) (by omega)
  have hlong : got.length < queued.length := by
    have hcount := h.length_contents
    rw [hqueued, List.length_map] at hcount
    omega
  rw [hqueued, List.getElem?_map, List.getElem?_eq_getElem hlong, Option.map_some] at hcell
  have hshift : got.length + (todo.length + 1) = (got ++ [queued[got.length]]).length +
      todo.length := by
    rw [List.length_append, List.length_singleton]
    omega
  refine ⟨queued[got.length], hcell.symm, ?_⟩
  exact
    { block := hr.block
      dvd := hshift ▸ hr.dvd
      used := by omega
      beginPtr := hshift ▸ hr.beginPtr
      todo := by
        rw [List.length_append, List.length_singleton, ← Nat.add_assoc]
        exact hrest
      copied := by
        rw [List.length_append, List.length_singleton, window_succ (by omega) hcell.symm,
          hr.copied, List.map_append]
        rfl }

/-- **A push is done**: what it copied is behind what there was. -/
theorem Sound.publishEnd (h : p.Sound) (hw : p.Writing [] s now) :
    Sound { p with endPtr := s.endPtr } ∧ p.Appends { p with endPtr := s.endPtr } ∧
      contents { p with endPtr := s.endPtr } = p.contents ++ now.map some := by
  obtain ⟨done, undone, rfl, htodo, hdone⟩ := hw.copied
  have hundone : undone = [] := by
    cases undone with
    | nil => rfl
    | cons y undone =>
        rw [List.length_cons, places_succ, List.zip_cons_cons] at htodo
        cases htodo
  subst hundone
  rw [List.append_nil] at hw ⊢
  have hroom := hw.room
  have hlength := h.length_eq
  have hend : p.endPtr = (p.beginPtr + p.elemSize + p.bytesInUse) % p.buffer.length :=
    h.placed.end_eq
  have hused : bytesInUse { p with endPtr := s.endPtr } = p.bytesInUse + done.length := by
    rw [hw.endPtr]
    exact h.placed.bytesInUse_pushed hw.dvd hroom
  refine ⟨?_, ⟨rfl, rfl, rfl, rfl, rfl, by omega, fun k hk => rfl⟩, ?_⟩
  · exact
      { placed := by
          rw [hw.endPtr]
          exact h.placed.pushed hw.dvd
        elem := h.elem
        dvd_min := h.dvd_min
        min_pos := h.min_pos
        min_ne := h.min_ne
        max := h.max
        min_le := h.min_le
        capacity_le := h.capacity_le
        size := h.size }
  · show window p.buffer (p.beginPtr + p.elemSize) _ = window p.buffer _ _ ++ _
    have hback : window p.buffer (p.beginPtr + p.elemSize + p.bytesInUse) done.length =
        window p.buffer p.endPtr done.length := window_congr (by rw [hend, Nat.mod_mod])
    rw [hused, window_add (by omega), hback, hdone]

/-- **A pop is done**: what it copied is no longer in use. -/
theorem Sound.publishBegin {got : List α} (h : p.Sound) (hr : p.Reading [] got s) :
    Sound { p with beginPtr := s.beginPtr } ∧ p.Removes { p with beginPtr := s.beginPtr } ∧
      p.contents = got.map some ++ contents { p with beginPtr := s.beginPtr } := by
  have hdvd := hr.dvd
  have hused := hr.used
  have hbegin := hr.beginPtr
  rw [List.length_nil, Nat.add_zero] at hdvd hused hbegin
  have hle := h.bytesInUse_le
  have hlength := h.length_eq
  have hused' : bytesInUse { p with beginPtr := s.beginPtr } = p.bytesInUse - got.length := by
    rw [hbegin]
    exact h.placed.bytesInUse_popped hdvd hused
  refine ⟨?_, ⟨rfl, rfl, rfl, rfl, rfl, by omega⟩, ?_⟩
  · exact
      { placed := by
          rw [hbegin]
          exact h.placed.popped hdvd
        elem := h.elem
        dvd_min := h.dvd_min
        min_pos := h.min_pos
        min_ne := h.min_ne
        max := h.max
        min_le := h.min_le
        capacity_le := h.capacity_le
        size := h.size }
  · show window p.buffer (p.beginPtr + p.elemSize) p.bytesInUse =
      _ ++ window p.buffer (s.beginPtr + p.elemSize) _
    have hstart : (s.beginPtr + p.elemSize) % p.buffer.length =
        (p.beginPtr + p.elemSize + got.length) % p.buffer.length := by
      rw [hbegin, Nat.mod_add_mod]
      congr 1
      omega
    rw [hused', window_congr hstart, ← hr.copied, ← window_add (by omega),
      Nat.add_sub_cancel' hused]

end PipeT

end SosFlow
