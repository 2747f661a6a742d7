import SosFlow.Pub.Arrays
import SosFlow.Lib.Trace

/-!
# The value that was packed last

`SOS_pack` leaves the value it was given in the element of the name, and in a
snapshot in the queue. It reads the value as the type the element got when
its name was new, whatever type the call gives, and copies at most 256 bytes
of a string, whose length it records in full. `holdsLatest_iff` says which
calls the pub holds the value of; the others leave something else under
their name.

A call that is refused leaves the pub as it was, apart from its lock.
-/

namespace SosFlow

open Trace

/-- The length of a value. -/
def SosVal.len : SosVal → CInt
  | int _ => 4
  | long _ => 8
  | double _ => 8
  | string c => intOf c.length
  | bytes b => intOf b.length

namespace PubArrays

/-- **The pub holds the value of a call**, in the element of its name and in the
snapshot that the call put into the queue. -/
structure HoldsLatest (v : ValueCall) (m m' : PubArrays) : Prop where
  elem : ∃ data, m'.elemAt (m'.pubSearch v.name) = some data ∧
    data.val.readAs data.type = some v.val ∧ data.valLen = v.val.len
  snap : ∃ snap, m'.snapQueue.items = m.snapQueue.items ++ [snap] ∧
    (snap.elem : ℤ) = m'.pubSearch v.name ∧ snap.type = v.val.type ∧
    snap.val.readAs snap.type = some v.val

/-- **The pub can take a value**: its type is that of the element, if the name has
one, and a string is no longer than what is copied. -/
structure TakesValue (m : PubArrays) (v : ValueCall) : Prop where
  type : ∀ data, m.elemAt (m.pubSearch v.name) = some data → data.type = v.val.type
  fits : ∀ c, v.val = .string c → c.length ≤ sosDefaultStringLen

variable {m m' placed : PubArrays} {v : ValueCall} {pos : ℕ} {rc : ℤ}

/-! ## One call -/

theorem cell_setCell {data : SosData} (h : m.cell pos = some data) (data' : SosData) :
    (m.setCell pos data').cell pos = some data' := by
  have hlt := (List.getElem?_eq_some_iff.mp (Option.join_eq_some_iff.mp h)).1
  show (m.data.set pos (some data'))[pos]?.join = _
  rw [List.getElem?_set_self hlt]
  rfl

theorem elemAt_natCast (pos : ℕ) : m.elemAt (pos : ℤ) = m.cell pos := by
  rw [elemAt, if_neg (not_lt.mpr (Int.natCast_nonneg pos)), Int.toNat_natCast]

/-- Making room changes neither the queue nor the count. -/
theorem withRoom_frame : m.withRoom.snapQueue = m.snapQueue ∧ m.withRoom.elemCount = m.elemCount := by
  unfold withRoom
  split <;> exact ⟨rfl, rfl⟩

/-- **Where a name stands**: its element is there already, or is made with the type
of the call. -/
theorem placeName_cases (h : m.placeName v = some (placed, pos)) :
    placed.pubSearch v.name = pos ∧ placed.snapQueue = m.snapQueue ∧
      (placed = m ∧ m.elemAt (m.pubSearch v.name) = m.cell pos ∨
        m.elemAt (m.pubSearch v.name) = none ∧
          ∃ data, placed.cell pos = some data ∧ data.type = v.val.type) := by
  unfold placeName at h
  split at h
  case isTrue hneg =>
    obtain ⟨added, hadd, heq⟩ := Option.map_eq_some_iff.mp h
    obtain ⟨rfl, rfl⟩ := Prod.mk.inj heq
    obtain ⟨data, hdata, rfl⟩ := Option.map_eq_some_iff.mp hadd
    obtain ⟨hqueue, hcount⟩ := m.withRoom_frame
    refine ⟨?_, hqueue, .inr ⟨?_, ?_⟩⟩
    · show ((Function.update m.withRoom.nameTable v.name (m.withRoom.elemCount + 1) v.name : ℕ) : ℤ)
        - 1 = m.elemCount
      rw [Function.update_self, hcount]
      push_cast
      exact add_sub_cancel_right _ 1
    · rw [elemAt, if_pos hneg]
    · refine ⟨data.forName v, ?_, rfl⟩
      rw [← hcount]
      exact cell_setCell hdata (data.forName v)
  case isFalse hpos =>
    obtain ⟨rfl, rfl⟩ := Prod.mk.inj (Option.some.inj h)
    have hsearch : m.pubSearch v.name = ((m.pubSearch v.name).toNat : ℤ) :=
      (Int.toNat_of_nonneg (not_lt.mp hpos)).symm
    refine ⟨hsearch, rfl, .inl ⟨rfl, ?_⟩⟩
    rw [elemAt, if_neg hpos]

/-- **What the union gives back**: the value itself, if it is read as its own type
and all of it is copied. -/
theorem renewUnion_iff {type : ValType} {copy : BitVec 64} {val : SosVal} {r : SosVal × CInt}
    (h : renewUnion type copy val = some r) :
    (type = val.type ∧ r.1.readAs type = some val ∧ r.2 = val.len) ↔
      type = val.type ∧ ∀ c, val = .string c → c.length ≤ sosDefaultStringLen := by
  constructor
  · rintro ⟨rfl, hread, -⟩
    refine ⟨rfl, ?_⟩
    rintro c rfl
    obtain rfl := Option.some.inj h
    -- a string is copied up to the default length, and read as what was copied
    have hcopied : SosVal.string (c.take sosDefaultStringLen) = .string c := Option.some.inj hread
    exact CString.take_eq_self_iff.mp (SosVal.string.inj hcopied)
  · rintro ⟨rfl, hfits⟩
    refine ⟨rfl, ?_⟩
    cases val with
    | int i =>
        obtain rfl := Option.some.inj h
        refine ⟨?_, rfl⟩
        show (SosVal.int ((i.setWidth 64).setWidth 32)).readAs .int = some (.int i)
        rw [BitVec.setWidth_setWidth_of_le i (by decide), BitVec.setWidth_eq]
        exact SosVal.readAs_type (.int i)
    | long l =>
        obtain rfl := Option.some.inj h
        exact ⟨rfl, rfl⟩
    | double d =>
        obtain rfl := Option.some.inj h
        exact ⟨rfl, rfl⟩
    | string c =>
        obtain rfl := Option.some.inj h
        refine ⟨?_, rfl⟩
        show some (SosVal.string (c.take sosDefaultStringLen)) = _
        rw [CString.take_eq_self_iff.mpr (hfits c rfl)]
    | bytes b => cases h

/-- **When the pub holds the value of a call that has returned.** -/
theorem holdsLatest_iff (h : m.packValue v = some (rc, m')) :
    HoldsLatest v m m' ↔ TakesValue m v := by
  obtain ⟨placed, pos, data, r, hplaced, hdata, hr, -, rfl⟩ := packValue_eq_some.mp h
  obtain ⟨hsearch, hqueue, hplace⟩ := placeName_cases hplaced
  have hunion := renewUnion_iff hr
  have helem : ((placed.setCell pos (data.renew r v.now)).queueSnap
      ((m.newSnap v pos data).packedAt v.now)).elemAt (placed.pubSearch v.name) =
        some (data.renew r v.now) := by
    rw [hsearch, elemAt_natCast]
    exact cell_setCell hdata (data.renew r v.now)
  -- an element that is made has the type of the call, one that is found its own
  have htype : data.type = v.val.type ↔
      ∀ d, m.elemAt (m.pubSearch v.name) = some d → d.type = v.val.type := by
    rcases hplace with ⟨rfl, hknown⟩ | ⟨hnew, made, hmade, hsame⟩
    · rw [hknown, hdata]
      refine ⟨?_, fun hall => hall data rfl⟩
      rintro hsame _ ⟨⟩
      exact hsame
    · obtain rfl := Option.some.inj (hdata.symm.trans hmade)
      refine iff_of_true hsame ?_
      intro d hd
      rw [hnew] at hd
      cases hd
  constructor
  · intro hholds
    obtain ⟨snap, hsnap, -, hsnapType, -⟩ := hholds.snap
    -- the snapshot at the end of the queue is the one of this call
    have hlast : snap = (m.newSnap v pos data).packedAt v.now := by
      have hitems : placed.snapQueue.items ++ [(m.newSnap v pos data).packedAt v.now] =
          m.snapQueue.items ++ [snap] := hsnap
      rw [hqueue] at hitems
      exact (List.singleton_inj.mp (List.append_cancel_left hitems)).symm
    rw [hlast] at hsnapType
    obtain ⟨elem, hfound, hread, hlen⟩ := hholds.elem
    obtain rfl := Option.some.inj (helem.symm.trans hfound)
    obtain ⟨hsame, hfits⟩ := hunion.mp ⟨hsnapType, hread, hlen⟩
    exact ⟨htype.mp hsame, hfits⟩
  · intro htakes
    obtain ⟨hsame, hread, hlen⟩ := hunion.mpr ⟨htype.mpr htakes.type, htakes.fits⟩
    refine ⟨⟨_, helem, hread, hlen⟩, (m.newSnap v pos data).packedAt v.now, ?_, hsearch.symm, hsame,
      ?_⟩
    · show placed.snapQueue.items ++ _ = _
      rw [hqueue]
    · show v.val.readAs data.type = some v.val
      rw [hsame, SosVal.readAs_type]

/-! ## A run of calls -/

/-- **What every call keeps**: there is an element behind every pointer, room for
those that are counted, and no name has a position behind them. -/
structure Sound (m : PubArrays) : Prop where
  room : m.elemCount ≤ m.elemMax
  length : m.data.length = m.elemMax
  cells : ∀ cell ∈ m.data, cell ≠ none
  table : ∀ name, m.nameTable name ≤ m.elemCount

theorem sound_init (guid : SosGuid) (newSize : ℕ) : (init guid newSize).Sound := by
  have hdata : (init guid newSize).data = List.replicate newSize (some .blank) :=
    allocElems_append [] newSize
  refine ⟨Nat.zero_le _, ?_, ?_, fun _ => le_rfl⟩
  · rw [hdata, List.length_replicate]
    rfl
  · intro cell hcell
    rw [hdata] at hcell
    rw [List.eq_of_mem_replicate hcell]
    exact Option.some_ne_none _

theorem Sound.exists_cell (h : m.Sound) (hpos : pos < m.elemMax) :
    ∃ data, m.cell pos = some data := by
  have hlt : pos < m.data.length := h.length.symm ▸ hpos
  obtain ⟨data, hdata⟩ := Option.ne_none_iff_exists'.mp (h.cells _ (List.getElem_mem hlt))
  exact ⟨data, by rw [cell, List.getElem?_eq_getElem hlt, hdata]; rfl⟩

theorem Sound.setCell (h : m.Sound) (pos : ℕ) (data : SosData) : (m.setCell pos data).Sound := by
  refine ⟨h.room, ?_, ?_, h.table⟩
  · show (m.data.set pos (some data)).length = m.elemMax
    rw [List.length_set, h.length]
  · intro cell hcell
    rcases List.mem_or_eq_of_mem_set hcell with hold | rfl
    · exact h.cells cell hold
    · exact Option.some_ne_none data

/-- **There is room** behind the growth. -/
theorem Sound.withRoom (h : m.Sound) : m.withRoom.Sound ∧ m.withRoom.elemCount < m.withRoom.elemMax := by
  unfold PubArrays.withRoom
  split
  case isTrue hfull =>
    have hdata := data_expandData h.length
    refine ⟨⟨h.room.trans (Nat.le_add_right _ _), ?_, ?_, h.table⟩, ?_⟩
    · rw [hdata, List.length_append, List.length_replicate, h.length]
      rfl
    · intro cell hcell
      rw [hdata] at hcell
      rcases List.mem_append.mp hcell with hold | hnew
      · exact h.cells cell hold
      · rw [List.eq_of_mem_replicate hnew]
        exact Option.some_ne_none _
    · show m.elemCount < m.elemMax + sosDefaultElemMax
      have hroom := h.room
      have hstep : 0 < sosDefaultElemMax := by decide
      omega
  case isFalse hroom => exact ⟨h, not_le.mp hroom⟩

/-- **A name is placed**, at a position that has an element. -/
theorem Sound.placeName (h : m.Sound) (v : ValueCall) : ∃ placed pos data,
    m.placeName v = some (placed, pos) ∧ placed.Sound ∧ placed.cell pos = some data := by
  unfold PubArrays.placeName
  split
  case isTrue =>
    obtain ⟨hsound, hlt⟩ := h.withRoom
    obtain ⟨data, hdata⟩ := hsound.exists_cell hlt
    have hset := hsound.setCell m.withRoom.elemCount (data.forName v)
    refine ⟨m.withRoom.named v data, m.elemCount, data.forName v, ?_, ?_, ?_⟩
    · rw [addName, hdata, Option.map_some, Option.map_some]
    · refine ⟨hlt, hset.length, hset.cells, ?_⟩
      intro name
      show Function.update m.withRoom.nameTable v.name (m.withRoom.elemCount + 1) name ≤
        m.withRoom.elemCount + 1
      by_cases hname : name = v.name
      · rw [hname, Function.update_self]
      · rw [Function.update_of_ne hname]
        exact (hsound.table name).trans (Nat.le_succ _)
    · rw [← m.withRoom_frame.2]
      exact cell_setCell hdata (data.forName v)
  case isFalse hpos =>
    have hlt : (m.pubSearch v.name).toNat < m.elemMax := by
      have htable := h.table v.name
      have hroom := h.room
      rw [pubSearch] at hpos ⊢
      omega
    obtain ⟨data, hdata⟩ := h.exists_cell hlt
    exact ⟨m, _, data, rfl, h, hdata⟩

/-- **A call keeps the arrays sound**, whatever it packs. -/
theorem Sound.packStep (m : PubArrays) (c : PackInput) (m' : PubArrays) (h : m.Sound)
    (hstep : m.packStep c = some m') : m'.Sound := by
  obtain ⟨r, hpack, rfl⟩ := Option.map_eq_some_iff.mp hstep
  have hkeep : ({ m with locked := true } : PubArrays).Sound := ⟨h.room, h.length, h.cells, h.table⟩
  cases c with
  | invalid =>
      obtain ⟨-, heq⟩ := Option.ite_none_left_eq_some.mp hpack
      cases heq
      exact hkeep
  | value v =>
      obtain ⟨-, hrest⟩ := Option.ite_none_left_eq_some.mp hpack
      by_cases hbytes : v.val.type = .bytes
      · rw [if_pos hbytes] at hrest
        cases hrest
        exact hkeep
      · rw [if_neg hbytes] at hrest
        obtain ⟨rc, m'⟩ := r
        obtain ⟨placed, pos, data, r, hplaced, -, -, -, rfl⟩ := packValue_eq_some.mp hrest
        obtain ⟨placed', pos', data', hplaced', hsound, -⟩ := h.placeName v
        obtain ⟨rfl, rfl⟩ := Prod.mk.inj (Option.some.inj (hplaced.symm.trans hplaced'))
        have hset := hsound.setCell pos (data.renew r v.now)
        exact ⟨hset.room, hset.length, hset.cells, hset.table⟩

/-- **A value that the pub takes** is packed. -/
theorem Sound.packs (h : m.Sound) (hlock : m.locked = false) (hbytes : v.val.type ≠ .bytes)
    (htakes : TakesValue m v) : ∃ rc m', m.pack (.value v) = some (rc, m') ∧ 0 ≤ rc := by
  obtain ⟨placed, pos, data, hplaced, -, hdata⟩ := h.placeName v
  have hsame : data.type = v.val.type := by
    rcases (placeName_cases hplaced).2.2 with ⟨rfl, hknown⟩ | ⟨-, made, hmade, hsame⟩
    · exact htakes.type data (hknown.trans hdata)
    · obtain rfl := Option.some.inj (hdata.symm.trans hmade)
      exact hsame
  obtain ⟨r, hr⟩ : ∃ r, renewUnion data.type v.copy v.val = some r := by
    rw [hsame]
    cases hval : v.val with
    | bytes b =>
        rw [hval] at hbytes
        exact absurd rfl hbytes
    | _ => exact ⟨_, rfl⟩
  have hpack := packValue_eq_some.mpr ⟨placed, pos, data, r, hplaced, hdata, hr, rfl, rfl⟩
  exact ⟨pos, _, (pack_value hlock hbytes).trans hpack, Int.natCast_nonneg pos⟩

/-- What is refused leaves the pub as it was, with its lock held. -/
theorem pack_refused {c : PackInput} (h : m.pack c = some (rc, m')) (hrc : rc < 0) :
    m' = { m with locked := true } := by
  cases c with
  | invalid =>
      obtain ⟨-, heq⟩ := Option.ite_none_left_eq_some.mp h
      cases heq
      rfl
  | value v =>
      obtain ⟨-, hrest⟩ := Option.ite_none_left_eq_some.mp h
      by_cases hbytes : v.val.type = .bytes
      · rw [if_pos hbytes] at hrest
        cases hrest
        rfl
      · rw [if_neg hbytes] at hrest
        obtain ⟨placed, pos, data, r, -, -, -, rfl, -⟩ := packValue_eq_some.mp hrest
        exact absurd hrc (not_lt.mpr (Int.natCast_nonneg pos))

/-- What has returned a position has packed its value. -/
theorem packValue_of_pack (h : m.pack (.value v) = some (rc, m')) (hrc : 0 ≤ rc) :
    m.packValue v = some (rc, m') := by
  obtain ⟨-, hrest⟩ := Option.ite_none_left_eq_some.mp h
  by_cases hbytes : v.val.type = .bytes
  · rw [if_pos hbytes] at hrest
    cases hrest
    exact absurd hrc (by decide)
  · rwa [if_neg hbytes] at hrest

end PubArrays

open PubArrays

/-- **Whose value a pub holds**, behind every run of calls: a call that returns a
position leaves its value exactly if the pub could take it, and one that could
be taken returns; a call that is refused changes nothing. -/
theorem latest_value_iff {guid : SosGuid} {newSize : ℕ} {calls : List PackInput} {m : PubArrays}
    (hrun : run packStep (init guid newSize) calls = some m) :
    (∀ v rc m', m.pack (.value v) = some (rc, m') → 0 ≤ rc →
      (HoldsLatest v m m' ↔ TakesValue m v)) ∧
    (∀ v, m.locked = false → v.val.type ≠ .bytes → TakesValue m v →
      ∃ rc m', m.pack (.value v) = some (rc, m') ∧ 0 ≤ rc) ∧
    ∀ c rc m', m.pack c = some (rc, m') → rc < 0 →
      m'.elemCount = m.elemCount ∧ m'.data = m.data ∧ m'.nameTable = m.nameTable ∧
        m'.announced = m.announced ∧ m'.snapQueue = m.snapQueue := by
  have hsound := run_preserves Sound.packStep (sound_init guid newSize) hrun
  refine ⟨?_, ?_, ?_⟩
  · intro v rc m' hpack hrc
    exact holdsLatest_iff (packValue_of_pack hpack hrc)
  · intro v hlock hbytes htakes
    exact hsound.packs hlock hbytes htakes
  · intro c rc m' hpack hrc
    obtain rfl := pack_refused hpack hrc
    exact ⟨rfl, rfl, rfl, rfl, rfl⟩

/-- A name that is packed as an integer. -/
def intCall : ValueCall := ⟨⟨nameX, .int 5, 0, 11, 0⟩, 0⟩

/-- The same name, with a long. -/
def longCall : ValueCall := ⟨⟨nameX, .long 7, 0, 12, 0⟩, 0⟩

theorem latest_value_int : ∃ m, run packStep (init 5 1) [.value intCall] = some m ∧
    ∃ rc m', m.pack (.value intCall) = some (rc, m') ∧ HoldsLatest intCall m m' := by
  have hruns : ((run packStep (init 5 1) [.value intCall]).map fun m =>
      (m.locked, (m.elemAt (m.pubSearch nameX)).map (·.type))) = some (false, some .int) := by decide
  obtain ⟨m, hm, heq⟩ := Option.map_eq_some_iff.mp hruns
  obtain ⟨hlock, htype⟩ := Prod.mk.inj heq
  obtain ⟨hholds, hreturns, -⟩ := latest_value_iff hm
  have htakes : TakesValue m intCall := by
    refine ⟨?_, fun c hc => (by cases hc)⟩
    intro data hdata
    have hsame : m.elemAt (m.pubSearch nameX) = some data := hdata
    rw [hsame, Option.map_some] at htype
    exact Option.some.inj htype
  obtain ⟨rc, m', hpack, hrc⟩ := hreturns intCall hlock (by decide) htakes
  exact ⟨m, hm, rc, m', hpack, (hholds intCall rc m' hpack hrc).mpr htakes⟩

/-- **A second type for a name**: the element keeps its own, and reads the value
as that. -/
theorem not_latest_value : ¬ ∀ (calls : List PackInput) (m : PubArrays) (v : ValueCall) (rc : ℤ)
    (m' : PubArrays), run packStep (init 5 1) calls = some m → m.pack (.value v) = some (rc, m') →
      0 ≤ rc → HoldsLatest v m m' := by
  intro hall
  have hruns : ((run packStep (init 5 1) [.value intCall]).bind fun m =>
      (m.pack (.value longCall)).map fun r => (r.1, r.2.snapQueue.items.map (·.type))) =
      some (0, [.int, .int]) := by decide
  obtain ⟨m, hm, hpacked⟩ := Option.bind_eq_some_iff.mp hruns
  obtain ⟨r, hr, heq⟩ := Option.map_eq_some_iff.mp hpacked
  obtain ⟨hrc, htypes⟩ := Prod.mk.inj heq
  obtain ⟨snap, hitems, -, htype, -⟩ := (hall _ m longCall r.1 r.2 hm hr hrc.symm.le).snap
  rw [hitems, List.map_append] at htypes
  have hlast := congrArg List.getLast? htypes
  rw [List.map_singleton, List.getLast?_concat, htype] at hlast
  cases hlast

end SosFlow
