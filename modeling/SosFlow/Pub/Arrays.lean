import SosFlow.Pub.Publish

/-!
# The arrays behind a client's pub

`SosPub` keeps the elements of a pub as a list. The source has an array of
pointers, `elem_count` and `elem_max` beside it, and a hash table that holds
for a name the position of its element and one, so that `NULL` means that
there is none. `SOS_pack` is written over these here, with its lock and its
return code, and also for a value that its element's type does not fit: the
bytes of the snapshot's union are then read as that type.

`pack_represents` is the connection: where `ClientPub.pack` is defined,
`SOS_pack` does on the arrays what it does on the lists.
-/

namespace SosFlow

/-- **What a call passes that packs a value**, with the address `strdup` would
give the copy of a string. -/
structure ValueCall extends PackArgs where
  copy : BitVec 64
deriving DecidableEq

/-- **A call of `SOS_pack`**: one with a value, or one with a type that is none. -/
inductive PackInput where
  | value (v : ValueCall)
  | invalid

/-- **A client's pub**, as far as `SOS_pack` uses it. A pointer that was not set
is `none`. -/
structure PubArrays where
  guid : SosGuid
  frame : CLong
  announced : Bool
  elemCount : ℕ
  elemMax : ℕ
  data : List (Option SosData)
  nameTable : CString → ℕ
  snapQueue : SosPipe SosValSnap
  locked : Bool

/-- The eight bytes of the union behind a value. -/
def SosVal.bytesWith (copy : BitVec 64) : SosVal → Option (BitVec 64)
  | .string _ => some copy
  | v => v.word

/-- The element's copy of what its type reads in the union, and its length. A
pointer that is `NULL` is replaced by the empty string. -/
def renewUnion (type : ValType) (copy : BitVec 64) (val : SosVal) : Option (SosVal × CInt) :=
  match type with
  | .int => (val.bytesWith copy).map fun w => (.int (w.setWidth 32), 4)
  | .long => (val.bytesWith copy).map fun w => (.long w, 8)
  | .double => (val.bytesWith copy).map fun w => (.double w, 8)
  | .string => match val with
    | .string c => some (.string (c.take sosDefaultStringLen), intOf c.length)
    | v => if v.word = some 0 then some (.string .empty, 0) else none
  | .bytes => none

/-- An element as a new name sets it up. -/
def SosData.forName (data : SosData) (v : ValueCall) : SosData :=
  { data with
    type := v.val.type
    guid := v.guid
    val := .long 0
    valLen := 0
    name := v.name.take sosDefaultStringLen }

/-- What `realloc` leaves of an array of pointers. -/
def reallocPtrs (data : List (Option SosData)) (size : ℕ) : List (Option SosData) :=
  data.take size ++ List.replicate (size - data.length) none

/-- **The loop that allocates elements**, `count` of them from `first` on. -/
def allocElems (data : List (Option SosData)) (first count : ℕ) : List (Option SosData) :=
  (List.range' first count).foldl (fun data n => data.set n (some .blank)) data

namespace PubArrays

/-- What `SOS_pub_init_sized` makes. -/
def init (guid : SosGuid) (newSize : ℕ) : PubArrays where
  guid := guid
  frame := 0
  announced := false
  elemCount := 0
  elemMax := newSize
  data := allocElems (List.replicate newSize none) 0 newSize
  nameTable := fun _ => 0
  snapQueue := .empty
  locked := false

variable (m : PubArrays)

/-- **`SOS_pub_search`.** -/
def pubSearch (name : CString) : ℤ := (m.nameTable name : ℤ) - 1

/-- `pub->data[pos]`. -/
def cell (pos : ℕ) : Option SosData := m.data[pos]?.join

/-- The element at what a search has found. -/
def elemAt (pos : ℤ) : Option SosData := if pos < 0 then none else m.cell pos.toNat

/-- **`SOS_expand_data`.** -/
def expandData : PubArrays :=
  { m with
    data := allocElems (reallocPtrs m.data (m.elemMax + sosDefaultElemMax)) m.elemMax
      sosDefaultElemMax
    elemMax := m.elemMax + sosDefaultElemMax }

/-- There is room for one element more. -/
def withRoom : PubArrays := if m.elemMax ≤ m.elemCount then m.expandData else m

/-- An element is set. -/
def setCell (pos : ℕ) (data : SosData) : PubArrays :=
  { m with data := m.data.set pos (some data) }

/-- The pub with a name more, whose element is the first to spare. -/
def named (v : ValueCall) (data : SosData) : PubArrays :=
  { m.setCell m.elemCount (data.forName v) with
    announced := false
    elemCount := m.elemCount + 1
    nameTable := Function.update m.nameTable v.name (m.elemCount + 1) }

/-- A name is put into the pub, once there is room. -/
def addName (v : ValueCall) : Option PubArrays := (m.cell m.elemCount).map (m.named v)

/-- The element of a name, which is made if there is none. -/
def placeName (v : ValueCall) : Option (PubArrays × ℕ) :=
  if m.pubSearch v.name < 0 then m.withRoom.addName v |>.map fun m' => (m', m.elemCount)
  else some (m, (m.pubSearch v.name).toNat)

/-- The snapshot of a value, with the type of its element. -/
def newSnap (v : ValueCall) (pos : ℕ) (data : SosData) : SosValSnap where
  elem := pos
  guid := data.guid
  pubGuid := m.guid
  relationId := v.relationId
  frame := m.frame
  time := ⟨0, 0, 0⟩
  semantic := 0
  type := data.type
  valLen := v.val.snapLen
  val := v.val

/-- **`SOS_pack_snap_situate_in_pub`**, for a value that packs. -/
def situate (v : ValueCall) : Option (PubArrays × SosValSnap) := do
  let placed ← m.placeName v
  let data ← placed.1.cell placed.2
  some (placed.1, m.newSnap v placed.2 data)

/-- **`SOS_pack_snap_renew_pub_data`.** -/
def renewPubData (v : ValueCall) (snap : SosValSnap) : Option (PubArrays × SosValSnap) := do
  let data ← m.cell snap.elem
  let r ← renewUnion snap.type v.copy snap.val
  some (m.setCell snap.elem (data.renew r v.now), snap.packedAt v.now)

/-- The snapshot goes into the queue. A client has no cache to tell. -/
def queueSnap (snap : SosValSnap) : PubArrays := { m with snapQueue := m.snapQueue.push snap }

/-- **`SOS_pack`** of a value that packs: what it returns, and what it leaves. -/
def packValue (v : ValueCall) : Option (ℤ × PubArrays) := do
  let situated ← m.situate v
  let renewed ← situated.1.renewPubData v situated.2
  some (renewed.2.elem, renewed.1.queueSnap renewed.2)

/-- **`SOS_pack`.** It takes the lock, and waits forever for one that a call
before it has kept. What does not pack is refused at once, and keeps it. -/
def pack : PackInput → Option (ℤ × PubArrays)
  | .invalid => if m.locked then none else some (-1, { m with locked := true })
  | .value v =>
      if m.locked then none
      else if v.val.type = .bytes then some (-1, { m with locked := true })
      else m.packValue v

/-- One call, in a run of them. -/
def packStep (c : PackInput) : Option PubArrays := (m.pack c).map (·.2)

end PubArrays

/-! ## Growing -/

/-- **The loop sets the pointers behind those that are kept.** -/
theorem allocElems_append (kept : List (Option SosData)) (count : ℕ) :
    allocElems (kept ++ List.replicate count none) kept.length count =
      kept ++ List.replicate count (some .blank) := by
  induction count generalizing kept with
  | zero => rfl
  | succ n ih =>
      have hset : (kept ++ List.replicate (n + 1) none).set kept.length (some SosData.blank) =
          (kept ++ [some .blank]) ++ List.replicate n none := by
        rw [List.replicate_succ, List.set_append_right _ _ le_rfl, Nat.sub_self, List.set_cons_zero,
          List.append_assoc, List.singleton_append]
      have hlen : kept.length + 1 = (kept ++ [some SosData.blank]).length := by
        rw [List.length_append, List.length_singleton]
      rw [allocElems, List.range'_succ, List.foldl_cons, hset, hlen]
      show allocElems _ _ n = _
      rw [ih, List.append_assoc, List.singleton_append, List.replicate_succ]

namespace PubArrays

variable {m : PubArrays}

/-- **Growing keeps every element**, and puts blank ones behind them. -/
theorem data_expandData (h : m.data.length = m.elemMax) :
    m.expandData.data = m.data ++ List.replicate sosDefaultElemMax (some .blank) := by
  have hkept : reallocPtrs m.data (m.elemMax + sosDefaultElemMax) =
      m.data ++ List.replicate sosDefaultElemMax none := by
    rw [reallocPtrs, ← h, List.take_of_length_le (Nat.le_add_right _ _), Nat.add_sub_cancel_left]
  have hgrown : m.expandData.data = allocElems (reallocPtrs m.data (m.elemMax + sosDefaultElemMax))
      m.elemMax sosDefaultElemMax := by simp only [expandData]
  rw [hgrown, hkept, ← h, allocElems_append]

/-! ## What a call does -/

variable {v : ValueCall}

/-- A call with a value that packs gets to packing it. -/
theorem pack_value (hlock : m.locked = false) (hbytes : v.val.type ≠ .bytes) :
    m.pack (.value v) = m.packValue v := by
  rw [pack, hlock, if_neg Bool.false_ne_true, if_neg hbytes]

/-- **A value is packed**: the element of its name is found or made, reads the
union as its type, and the snapshot has that type too. -/
theorem packValue_eq_some {rc : ℤ} {m' : PubArrays} :
    m.packValue v = some (rc, m') ↔ ∃ placed pos data r,
      m.placeName v = some (placed, pos) ∧ placed.cell pos = some data ∧
      renewUnion data.type v.copy v.val = some r ∧ rc = pos ∧
      m' = (placed.setCell pos (data.renew r v.now)).queueSnap
        ((m.newSnap v pos data).packedAt v.now) := by
  unfold packValue situate renewPubData
  simp only [Option.bind_eq_bind, Option.bind_eq_some_iff, Option.some.injEq]
  constructor
  · rintro ⟨_, ⟨placed, hplaced, data, hdata, rfl⟩, _, ⟨data', hdata', r, hr, rfl⟩, heq⟩
    obtain ⟨rfl, rfl⟩ := Prod.mk.inj heq
    obtain rfl := Option.some.inj (hdata.symm.trans hdata')
    exact ⟨placed.1, placed.2, data, r, hplaced, hdata, hr, rfl, rfl⟩
  · rintro ⟨placed, pos, data, r, hplaced, hdata, hr, rfl, rfl⟩
    exact ⟨_, ⟨_, hplaced, data, hdata, rfl⟩, _, ⟨data, hdata, r, hr, rfl⟩, rfl⟩

/-! ## The arrays and the lists -/

/-- **The arrays hold what the lists do.** -/
structure Represents (m : PubArrays) (c : ClientPub) : Prop where
  guid : m.guid = c.pub.guid
  frame : m.frame = c.pub.frame
  announced : m.announced = c.pub.announced
  count : m.elemCount = c.pub.elemCount
  max : m.elemMax = m.data.length
  data : m.data = (c.pub.data ++ c.pub.spare).map some
  search : ∀ name, m.nameTable name = (sosPubSearch c.pub name).elim 0 (· + 1)
  queue : m.snapQueue = c.queue
  unlocked : m.locked = false

theorem represents_init (config : SosConfig) (guid : SosGuid) (title : CString) (nature : CInt)
    (newSize : ℕ) :
    Represents (init guid newSize) ⟨sosPubInitSized config guid title nature newSize, .empty⟩ := by
  have hdata : (init guid newSize).data = List.replicate newSize (some .blank) :=
    allocElems_append [] newSize
  refine ⟨rfl, rfl, rfl, rfl, ?_, ?_, fun _ => rfl, rfl, rfl⟩
  · rw [hdata, List.length_replicate]
    rfl
  · rw [hdata]
    exact List.map_replicate.symm

variable {c c' : ClientPub}

/-- The element at a position. -/
theorem Represents.cell (h : Represents m c) {pos : ℕ} {data : SosData}
    (hdata : c.pub.data[pos]? = some data) : m.cell pos = some data := by
  have hlt := (List.getElem?_eq_some_iff.mp hdata).1
  rw [PubArrays.cell, h.data, List.getElem?_map, List.getElem?_append_left hlt, hdata]
  rfl

theorem Represents.pubSearch (h : Represents m c) (name : CString) :
    m.pubSearch name = (sosPubSearch c.pub name).elim (-1) fun pos => (pos : ℤ) := by
  rw [PubArrays.pubSearch, h.search]
  cases sosPubSearch c.pub name with
  | none => rfl
  | some pos => exact add_sub_cancel_right (pos : ℤ) 1

/-- Where the lists read a value as a type, the union holds the same. -/
theorem renewUnion_of_renewVal {type : ValType} {val : SosVal} {r : SosVal × CInt}
    (copy : BitVec 64) (h : renewVal type val = some r) : renewUnion type copy val = some r := by
  cases type with
  | bytes => cases val <;> cases h
  | _ => cases val <;> first | exact h | cases h

/-- **An element takes a value**, on both sides. -/
theorem Represents.setElem (h : Represents m c) {pos : ℕ} (hpos : pos < c.pub.elemCount)
    (data : SosData) (snap : SosValSnap) :
    Represents ((m.setCell pos data).queueSnap snap)
      ⟨c.pub.setElem pos data, c.queue.push snap⟩ := by
  refine ⟨h.guid, h.frame, h.announced, ?_, ?_, ?_, h.search, ?_, h.unlocked⟩
  · show m.elemCount = (c.pub.data.set pos data).length
    rw [List.length_set, h.count]
    rfl
  · show m.elemMax = (m.data.set pos (some data)).length
    rw [List.length_set, h.max]
  · show m.data.set pos (some data) = (c.pub.data.set pos data ++ c.pub.spare).map some
    rw [h.data, ← List.map_set, List.set_append_left _ _ hpos]
  · show m.snapQueue.push snap = c.queue.push snap
    rw [h.queue]

/-- **The pub grows**, on both sides. -/
theorem Represents.withRoom (h : Represents m c) :
    Represents m.withRoom ⟨c.pub.growForElem, c.queue⟩ := by
  have hmax : m.elemMax = c.pub.data.length + c.pub.spare.length := by
    rw [h.max, h.data, List.length_map, List.length_append]
  have hcount : m.elemCount = c.pub.data.length := h.count
  have hfull : m.elemMax ≤ m.elemCount ↔ c.pub.spare = [] := by
    rw [← List.length_eq_zero_iff]
    omega
  unfold PubArrays.withRoom SosPub.growForElem
  by_cases hspare : c.pub.spare = []
  · rw [if_pos (hfull.mpr hspare), if_pos hspare]
    have hdata := data_expandData h.max.symm
    refine ⟨h.guid, h.frame, h.announced, h.count, ?_, ?_, h.search, h.queue, h.unlocked⟩
    · rw [hdata, List.length_append, List.length_replicate, ← h.max]
      rfl
    · show m.expandData.data =
        (c.pub.data ++ (c.pub.spare ++ List.replicate sosDefaultElemMax SosData.blank)).map some
      rw [hdata, h.data, ← List.map_replicate, ← List.map_append, List.append_assoc]
  · rw [if_neg (fun hle => hspare (hfull.mp hle)), if_neg hspare]
    exact h

/-- Behind the growth there is an element to spare. -/
theorem exists_spare (pub : SosPub) : ∃ data rest, pub.growForElem.spare = data :: rest := by
  refine List.exists_cons_of_ne_nil ?_
  unfold SosPub.growForElem
  split
  case isTrue hspare =>
    show pub.spare ++ List.replicate sosDefaultElemMax SosData.blank ≠ []
    rw [hspare, List.nil_append, Ne, List.replicate_eq_nil_iff]
    decide
  case isFalse hspare => exact hspare

/-- **A new name is added**, on both sides. -/
theorem Represents.addName (h : Represents m c) (hnew : sosPubSearch c.pub v.name = none) :
    ∃ m', m.withRoom.addName v = some m' ∧
      Represents m' ⟨c.pub.addElem v.guid v.name v.val.type, c.queue⟩ := by
  have hroom := h.withRoom
  obtain ⟨data, rest, hspare⟩ := exists_spare c.pub
  obtain ⟨spare, hgrow, -⟩ := c.pub.growForElem_eq
  have hcount : m.withRoom.elemCount = c.pub.growForElem.data.length := hroom.count
  -- the new element is the first of the spare ones, behind all that are counted
  have hplace : m.withRoom.data =
      (c.pub.growForElem.data ++ data :: rest).map some := by rw [hroom.data, hspare]
  have hcell : m.withRoom.cell m.withRoom.elemCount = some data := by
    rw [PubArrays.cell, hplace, hcount, List.getElem?_map, List.getElem?_append_right le_rfl,
      Nat.sub_self]
    rfl
  refine ⟨m.withRoom.named v data, by rw [PubArrays.addName, hcell, Option.map_some], ?_⟩
  refine ⟨?_, ?_, rfl, ?_, ?_, ?_, ?_, hroom.queue, hroom.unlocked⟩
  · rw [SosPub.guid_addElem]
    exact hroom.guid.trans (by rw [hgrow])
  · rw [SosPub.frame_addElem]
    exact hroom.frame.trans (by rw [hgrow])
  · show m.withRoom.elemCount + 1 = (c.pub.addElem _ _ _).data.length
    rw [SosPub.data_addElem, List.length_append, List.length_singleton, hcount, hgrow]
  · show m.withRoom.elemMax = (m.withRoom.data.set _ _).length
    rw [List.length_set, hroom.max]
  · show m.withRoom.data.set m.withRoom.elemCount (some (data.forName v)) =
      ((c.pub.growForElem.data ++ [c.pub.newData v.guid v.name v.val.type]) ++
        c.pub.growForElem.spare.tail).map some
    have hfirst : c.pub.growForElem.spare.headD .blank = data := by rw [hspare, List.headD_cons]
    rw [hplace, hcount, ← List.map_set, List.set_append_right _ _ le_rfl, Nat.sub_self,
      List.set_cons_zero, SosPub.newData, hfirst, hspare, List.tail_cons, List.append_assoc,
      List.singleton_append, SosData.forName]
  · intro name
    show Function.update m.withRoom.nameTable v.name (m.withRoom.elemCount + 1) name = _
    rw [SosPub.sosPubSearch_addElem c.pub v.guid v.val.type hnew]
    by_cases hname : name = v.name
    · rw [if_pos hname, hname, Function.update_self, hcount, hgrow]
      rfl
    · rw [if_neg hname, Function.update_of_ne hname, hroom.search, hgrow]
      rfl

variable (v) in
/-- **The element of a name is found or made**, on both sides. -/
theorem Represents.placeName (h : Represents m c) :
    ∃ m', m.placeName v = some (m', c.pub.elemPos v.name) ∧
      Represents m' ⟨c.pub.withElem v.guid v.name v.val.type, c.queue⟩ := by
  unfold PubArrays.placeName SosPub.elemPos SosPub.withElem
  rw [h.pubSearch]
  cases hknown : sosPubSearch c.pub v.name with
  | none =>
      obtain ⟨m', hadd, hm'⟩ := h.addName hknown
      refine ⟨m', ?_, hm'⟩
      show (if (-1 : ℤ) < 0 then _ else _) = _
      rw [if_pos (by decide), hadd, h.count]
      rfl
  | some pos =>
      refine ⟨m, ?_, h⟩
      show (if (pos : ℤ) < 0 then _ else _) = _
      rw [if_neg (not_lt.mpr (Int.natCast_nonneg pos))]
      rfl

/-- **`SOS_pack` on the arrays** does what it does on the lists. -/
theorem pack_represents (h : Represents m c) (hpack : c.pack v.toPackArgs = some c') :
    ∃ m', m.pack (.value v) = some ((c.pub.elemPos v.name : ℤ), m') ∧ Represents m' c' := by
  obtain ⟨hbytes, data, r, hdata, hr, hpub, hqueue⟩ := ClientPub.pack_eq_some.mp hpack
  obtain ⟨placed, hplaced, hrep⟩ := h.placeName v
  have hpos : c.pub.elemPos v.name < (c.pub.withElem v.guid v.name v.val.type).elemCount :=
    (List.getElem?_eq_some_iff.mp hdata).1
  have hsnap : (m.newSnap v (c.pub.elemPos v.name) data).packedAt v.now =
      v.snap c.pub (c.pub.elemPos v.name) data := by
    rw [newSnap, h.guid, h.frame]
    rfl
  have hset := hrep.setElem hpos (data.renew r v.now) (v.snap c.pub (c.pub.elemPos v.name) data)
  have hleft : c' = ⟨(c.pub.withElem v.guid v.name v.val.type).setElem (c.pub.elemPos v.name)
      (data.renew r v.now), c.queue.push (v.snap c.pub (c.pub.elemPos v.name) data)⟩ := by
    rw [← hpub, ← hqueue]
  rw [← hsnap] at hset hleft
  rw [hleft]
  refine ⟨_, ?_, hset⟩
  rw [pack_value h.unlocked hbytes]
  exact packValue_eq_some.mpr
    ⟨placed, _, data, r, hplaced, hrep.cell hdata, renewUnion_of_renewVal v.copy hr, rfl, rfl⟩

end PubArrays

end SosFlow
