import SosFlow.Analytics.Manifest
import SosFlow.Lib.Loop
import SosFlow.Pub.CacheResize

/-!
# The rows of a cache query

A daemon answers a query of its caches with a row for each cached snapshot
that matches. In a pub it starts at the head of the ring and goes around
once, past the frames that are too new, until it has as many as it may
take or comes to an empty slot.

Two queries go wrong. A limit of zero is documented as no limit and takes
nothing. And the frame of a slot is read before the slot is compared to
`NULL`, so a query that asks for a frame to start at reads through `NULL`
where it comes to an empty slot.
-/

namespace SosFlow

/-- **A query of the caches**: what titles and names contain, the frame to start at,
and how many frames may be taken. -/
structure CacheQuery where
  pubFilter : CString
  valFilter : CString
  frameHead : ℤ
  frameDepthLimit : ℤ

/-- What the scan of a pub has put so far. -/
structure CacheGrab where
  framesGrabbed : ℤ
  row : ℕ
  results : ResultsTable

/-- Where it is. -/
structure CacheScan where
  readPos : ℤ
  stopPos : ℤ
  got : CacheGrab

/-- The fourteen columns. -/
def cacheNames : List CString :=
  [literal "process_id", literal "node_id", literal "pub_title", literal "pub_guid",
    literal "comm_rank", literal "prog_name", literal "time_pack", literal "time_recv",
    literal "frame", literal "relation_id", literal "val_name", literal "val_type",
    literal "val_guid", literal "val"]

section

-- what `"%lf"` leaves of a number
variable (lf : Double → CString)

/-- The text of a value. -/
def valStr : SosVal → CString
  | .int i => intStr i.toInt
  | .long l => intStr l.toInt
  | .double d => lf d
  | .string c => c
  | .bytes _ => literal "(bytes)"

/-- The text of the value of a snapshot. A block is not read for it. -/
def snapStr (snap : SosValSnap) : Option CString :=
  if snap.type = .bytes then some (literal "(bytes)")
  else (snap.val.readAs snap.type).map (valStr lf)

/-- The texts of a row. -/
def cacheRow (pub : SosPub) (snap : SosValSnap) (name val : CString) : List (Option CString) :=
  [intStr pub.processId.toInt, pub.nodeId, pub.title, guidStr pub.guid, intStr pub.commRank.toInt,
    pub.progName, lf snap.time.pack, lf snap.time.recv, intStr snap.frame.toInt,
    guidStr snap.relationId, name, intStr snap.type.code.toInt, guidStr snap.guid, val].map some

namespace CacheQuery

variable (q : CacheQuery) (pub : SosPub)

/-- The loop over the snapshots of a frame. -/
def putSnaps : List SosValSnap → ℕ → ResultsTable → Except CacheFault (ℕ × ResultsTable)
  | [], row, results => .ok (row, results)
  | snap :: rest, row, results => do
    let data ← Outcome.ofOption .outside pub.data[snap.elem]?
    if q.valFilter.bytes <:+: data.name.bytes then
      let val ← Outcome.ofOption .outside (snapStr lf snap)
      let results ← Outcome.ofOption .outside
        (ResultsTable.putRow row 0 (cacheRow lf pub snap data.name val) results)
      putSnaps rest (row + 1) { results with rowCount := row + 1 }
    else putSnaps rest row results

/-- What a round does with a slot; it is the last one if the slot is empty. -/
def visit (slot : CacheSlot) (got : CacheGrab) :
    Except CacheFault (Loop.Turn CacheGrab (Except CacheFault CacheGrab)) := do
  let newer ← slot.newerThan q.frameHead
  if newer then .ok (.next got)
  else if slot.last ≠ .null then .error .badChain
  else if slot.snaps = [] then .ok (.done (.ok got))
  else
    let (row, results) ← q.putSnaps lf pub slot.snaps got.row got.results
    .ok (.next ⟨got.framesGrabbed + 1, row, results⟩)

/-- More frames may be taken. -/
def More (framesGrabbed : ℤ) : Prop :=
  framesGrabbed < q.frameDepthLimit ∨ q.frameDepthLimit = -1

instance (framesGrabbed : ℤ) : Decidable (q.More framesGrabbed) := by
  unfold More
  infer_instance

/-- **A round of the loop** through the cache of a pub. -/
def scanTurn (s : CacheScan) : Loop.Turn CacheScan (Except CacheFault CacheGrab) :=
  if s.readPos ≠ s.stopPos ∧ q.More s.got.framesGrabbed then
    match pub.slot s.readPos with
    | .error fault => .done (.error fault)
    | .ok slot => match q.visit lf pub slot s.got with
      | .error fault => .done (.error fault)
      | .ok turn => turn.map fun got => ⟨pub.nextPos s.readPos, pub.cacheHead, got⟩
  else .done (.ok s.got)

/-- The pub caches, and its title contains the filter. -/
def Selects : Prop := 0 < pub.cacheDepth ∧ q.pubFilter.bytes <:+: pub.title.bytes

instance : Decidable (q.Selects pub) := by
  unfold Selects
  infer_instance

/-- One pub, in at most that many rounds. -/
def scanPub (rounds : ℕ) (got : CacheGrab) : Option (Except CacheFault CacheGrab) :=
  if q.Selects pub then
    Loop.iterate (q.scanTurn lf pub) rounds
      ⟨pub.cacheHead, -1, ⟨0, got.row, got.results⟩⟩
  else some (.ok got)

/-- The loop over the pubs. -/
def scanPubs (rounds : ℕ) : List SosPub → CacheGrab → Option (Except CacheFault CacheGrab)
  | [], got => some (.ok got)
  | pub :: rest, got => match q.scanPub lf pub rounds got with
    | some (.ok got') => scanPubs rounds rest got'
    | ended => ended

/-- **`SOSA_cache_to_results`**, with at most that many rounds in a pub. -/
def toResults (rounds : ℕ) (pubs : List SosPub) (results : ResultsTable) (duration : Double) :
    Option (Except CacheFault ResultsTable) :=
  match ResultsTable.putNames 0 cacheNames results with
  | none => some (.error .outside)
  | some named => (q.scanPubs lf rounds pubs ⟨0, 0, named⟩).map fun ended =>
      ended.map fun got => { got.results with execDuration := duration }

end CacheQuery

end

/-! ## What is to be found -/

namespace SosPub

/-- **The frames that are cached**, from the newest on. -/
def cachedFrames (pub : SosPub) : List CacheSlot := pub.ringOrder.takeWhile (· ≠ .null)

/-- **A cache that is well shaped**: an array of its depth with the head in it, filled
from the head on with lists of snapshots of its elements, the newest frame first. -/
structure CacheFilled (pub : SosPub) : Prop where
  allocated : pub.Allocated
  behind : ∀ s ∈ pub.ringOrder.dropWhile (· ≠ .null), s = .null
  chains : ∀ s ∈ pub.cachedFrames, s.snaps ≠ [] ∧ s.last = .null
  elems : ∀ s ∈ pub.cachedFrames, ∀ snap ∈ s.snaps,
    snap.elem < pub.data.length ∧ (snap.val.readAs snap.type).isSome
  decreasing : pub.cachedFrames.Pairwise fun s s' =>
    ∀ snap ∈ s.snaps.head?, ∀ snap' ∈ s'.snaps.head?, snap'.frame.toInt < snap.frame.toInt

end SosPub

namespace CacheQuery

variable (q : CacheQuery) (pub : SosPub)

/-- A frame is not too new for the query. -/
def Reaches (slot : CacheSlot) : Prop :=
  q.frameHead = -1 ∨ ∀ snap ∈ slot.snaps.head?, snap.frame.toInt ≤ q.frameHead

instance (slot : CacheSlot) : Decidable (q.Reaches slot) := by
  unfold Reaches
  infer_instance

/-- Those of some frames. -/
def reached (frames : List CacheSlot) : List CacheSlot :=
  frames.filter fun slot => decide (q.Reaches slot)

/-- **The frames to take**: as many as the limit says, where `-1` and `0` are no limit. -/
def framesOf : List CacheSlot :=
  if q.frameDepthLimit = -1 ∨ q.frameDepthLimit = 0 then q.reached pub.cachedFrames
  else (q.reached pub.cachedFrames).take q.frameDepthLimit.toNat

/-- The name of the element contains the filter. -/
def Names (snap : SosValSnap) : Prop :=
  ∃ data ∈ pub.data[snap.elem]?, q.valFilter.bytes <:+: data.name.bytes

instance (snap : SosValSnap) : Decidable (q.Names pub snap) := by
  unfold Names
  infer_instance

/-- The row of a snapshot, where its name does. -/
def rowOf (lf : Double → CString) (snap : SosValSnap) : Option (List (Option CString)) := do
  let data ← pub.data[snap.elem]?
  if q.valFilter.bytes <:+: data.name.bytes then
    let val ← snapStr lf snap
    some (cacheRow lf pub snap data.name val)
  else none

/-- The rows of some frames. -/
def rowsOf (lf : Double → CString) (frames : List CacheSlot) : List (List (Option CString)) :=
  frames.flatMap fun slot => slot.snaps.filterMap (q.rowOf pub lf)

/-- **The rows that a pub should have** in the answer. -/
def answer (lf : Double → CString) : List (List (Option CString)) :=
  if q.pubFilter.bytes <:+: pub.title.bytes then q.rowsOf pub lf (q.framesOf pub) else []

/-- **A query is answered right**: the scan ends with a table of exactly the rows that
the pubs should have, in order, under the fourteen names. -/
def AnsweredRight (lf : Double → CString) (pubs : List SosPub) (results : ResultsTable)
    (duration : Double) : Prop :=
  ∃ rounds t, q.toResults lf rounds pubs results duration = some (.ok t) ∧
    t.HoldsRows (pubs.flatMap fun pub => q.answer pub lf) ∧
    ∀ col < cacheNames.length, t.name col = cacheNames[col]?

/-- **The scan of the frames stays in front of the empty slots**: it starts at the
head, or no slot is empty, or the limit is reached before. -/
def Stops (framesGrabbed : ℤ) (wanted : ℕ) (empty : List CacheSlot) : Prop :=
  q.frameHead = -1 ∨ empty = [] ∨
    q.frameDepthLimit ≠ -1 ∧ q.frameDepthLimit ≤ framesGrabbed + wanted

/-- **The condition** on a pub: with a limit of zero there is nothing that should be
found, and with any other the scan stays in front of the empty slots. -/
def Meets : Prop :=
  q.Selects pub → if q.frameDepthLimit = 0
    then ∀ slot ∈ q.reached pub.cachedFrames, ∀ snap ∈ slot.snaps, ¬ q.Names pub snap
    else q.Stops 0 (q.reached pub.cachedFrames).length (pub.ringOrder.dropWhile (· ≠ .null))

end CacheQuery

/-! ## The ring -/

section

variable {q : CacheQuery} {pub : SosPub} {lf : Double → CString}

/-- The slot `k` places behind the head. -/
def ringPos (pub : SosPub) (k : ℕ) : ℤ :=
  if pub.cacheHead + k < pub.cacheDepth then pub.cacheHead + k
  else pub.cacheHead + k - pub.cacheDepth

/-- What is in it. -/
theorem slot_ringPos (h : pub.Allocated) {k : ℕ} {slot : CacheSlot}
    (hk : pub.ringOrder[k]? = some slot) : pub.slot (ringPos pub k) = .ok slot := by
  have hnonneg := h.nonneg
  have hlength := h.length
  have hhead := h.head
  obtain ⟨hlt, -⟩ := List.getElem?_eq_some_iff.mp hk
  rw [SosPub.length_ringOrder] at hlt
  rw [SosPub.ringOrder, List.getElem?_rotate hlt] at hk
  -- head and distance are both inside, so the sum goes around at most once
  have hpos : (ringPos pub k).toNat = (k + pub.cacheHead.toNat) % pub.slots.length := by
    unfold ringPos
    split_ifs with hin
    · rw [Nat.mod_eq_of_lt (by omega)]
      omega
    · rw [Nat.mod_eq_sub_mod (by omega), Nat.mod_eq_of_lt (by omega)]
      omega
  have hneg : ¬ ringPos pub k < 0 := by
    unfold ringPos
    split_ifs <;> omega
  rw [SosPub.slot, if_neg hneg, hpos, hk]

/-- Behind it is the next one. -/
theorem nextPos_ringPos (h : pub.Allocated) {k : ℕ} (hk : k < pub.slots.length) :
    pub.nextPos (ringPos pub k) = ringPos pub (k + 1) := by
  have hnonneg := h.nonneg
  have hlength := h.length
  have hhead := h.head
  unfold SosPub.nextPos ringPos
  split_ifs <;> omega

/-- Where the scan is has not come around to where it stops. -/
theorem ringPos_ne_stop (h : pub.Allocated) {k : ℕ} (hk : k < pub.slots.length) :
    ringPos pub k ≠ if k = 0 then -1 else pub.cacheHead := by
  have hnonneg := h.nonneg
  have hlength := h.length
  have hhead := h.head
  unfold ringPos
  split_ifs <;> omega

theorem ringPos_zero (h : pub.Allocated) (hpos : 0 < pub.cacheDepth) :
    ringPos pub 0 = pub.cacheHead := by
  have hhead := h.head
  unfold ringPos
  split_ifs <;> omega

/-- Once around, it is where it started. -/
theorem ringPos_length (h : pub.Allocated) (hpos : 0 < pub.cacheDepth) :
    pub.ringOrder.length ≠ 0 ∧ ringPos pub pub.ringOrder.length = pub.cacheHead := by
  have hnonneg := h.nonneg
  have hlength := h.length
  rw [SosPub.length_ringOrder]
  unfold ringPos
  split_ifs <;> omega

/-- The state of the scan at a place of the ring. -/
def scanAt (pub : SosPub) (k : ℕ) (got : CacheGrab) : CacheScan :=
  ⟨ringPos pub k, if k = 0 then -1 else pub.cacheHead, got⟩

/-- What a round does with a slot, unless enough frames were taken. -/
def visitMore (q : CacheQuery) (lf : Double → CString) (pub : SosPub) (slot : CacheSlot)
    (got : CacheGrab) : Loop.Turn CacheGrab (Except CacheFault CacheGrab) :=
  if q.More got.framesGrabbed then
    match q.visit lf pub slot got with
    | .error fault => .done (.error fault)
    | .ok turn => turn
  else .done (.ok got)

variable (q lf) in
/-- **The scan goes around the ring once.** -/
theorem scan_returns (h : pub.Allocated) (hpos : 0 < pub.cacheDepth) (got : CacheGrab) :
    Loop.Returns (q.scanTurn lf pub) ⟨pub.cacheHead, -1, got⟩
      (Loop.overList (visitMore q lf pub) .ok pub.ringOrder got) := by
  have hstart : scanAt pub 0 got = ⟨pub.cacheHead, -1, got⟩ := by
    rw [scanAt, ringPos_zero h hpos, if_pos rfl]
  rw [← hstart]
  refine Loop.returns_over (scanAt pub) pub.ringOrder (fun k slot got hk => ?_) (fun got => ?_) got
  · obtain ⟨hlt, -⟩ := List.getElem?_eq_some_iff.mp hk
    rw [SosPub.length_ringOrder] at hlt
    unfold CacheQuery.scanTurn visitMore scanAt
    dsimp only
    by_cases hmore : q.More got.framesGrabbed
    · rw [if_pos ⟨ringPos_ne_stop h hlt, hmore⟩, if_pos hmore, slot_ringPos h hk,
        nextPos_ringPos h hlt]
      dsimp only
      rw [if_neg (Nat.succ_ne_zero k)]
      cases q.visit lf pub slot got with
      | error fault => rfl
      | ok turn => rfl
    · rw [if_neg (fun hboth => hmore hboth.2), if_neg hmore]
      rfl
  · obtain ⟨hne, hlast⟩ := ringPos_length h hpos
    unfold CacheQuery.scanTurn scanAt
    dsimp only
    rw [hlast, if_neg hne, if_neg (fun hboth => hboth.1 rfl)]

/-! ## A frame -/

/-- The scan has put some rows. -/
structure CacheGrab.Holds (got : CacheGrab) (rows : List (List (Option CString)))
    (names : ℕ → Option CString) : Prop where
  row : got.row = rows.length
  results : got.results.HoldsRows rows
  name : got.results.name = names

variable (lf) in
/-- The text of a snapshot's value, where it can be read. -/
theorem exists_snapStr {snap : SosValSnap} (htyped : (snap.val.readAs snap.type).isSome) :
    ∃ val, snapStr lf snap = some val := by
  unfold snapStr
  split_ifs with hbytes
  · exact ⟨_, rfl⟩
  · obtain ⟨v, hv⟩ := Option.isSome_iff_exists.mp htyped
    exact ⟨valStr lf v, by rw [hv, Option.map_some]⟩

variable (q lf) in
/-- **The snapshots of a frame** are put as rows behind the others. -/
theorem putSnaps_spec {snaps : List SosValSnap} {results : ResultsTable}
    {rows : List (List (Option CString))} (h : results.HoldsRows rows)
    (hsnaps : ∀ snap ∈ snaps, snap.elem < pub.data.length ∧
      (snap.val.readAs snap.type).isSome) :
    ∃ results', q.putSnaps lf pub snaps rows.length results =
        .ok (rows.length + (snaps.filterMap (q.rowOf pub lf)).length, results') ∧
      results'.HoldsRows (rows ++ snaps.filterMap (q.rowOf pub lf)) ∧
      results'.name = results.name := by
  induction snaps generalizing results rows with
  | nil => exact ⟨results, rfl, by rwa [List.filterMap_nil, List.append_nil], rfl⟩
  | cons snap rest ih =>
      obtain ⟨helem, htyped⟩ := hsnaps snap List.mem_cons_self
      have hrest : ∀ snap' ∈ rest, snap'.elem < pub.data.length ∧
          (snap'.val.readAs snap'.type).isSome :=
        fun snap' hmem => hsnaps snap' (List.mem_cons_of_mem snap hmem)
      have hdata : pub.data[snap.elem]? = some pub.data[snap.elem] := List.getElem?_eq_getElem helem
      obtain ⟨val, hval⟩ := exists_snapStr lf htyped
      by_cases hname : q.valFilter.bytes <:+: pub.data[snap.elem].name.bytes
      · have hrow : q.rowOf pub lf snap =
            some (cacheRow lf pub snap pub.data[snap.elem].name val) := by
          simp only [CacheQuery.rowOf, hdata, hval, Option.bind_eq_bind, Option.bind_some,
            if_pos hname]
        have hwidth : (cacheRow lf pub snap pub.data[snap.elem].name val).length = 14 := rfl
        have hdefault : sosaDefaultResultColMax = 14 := rfl
        obtain ⟨put, hput, hvals, hrows⟩ := h.putRow
          (cacheRow lf pub snap pub.data[snap.elem].name val) (by omega)
          (fun hnil => absurd (congrArg List.length hnil) (by rw [hwidth]; decide))
        obtain ⟨results', hresults, hrows', hnames⟩ := ih hrows hrest
        rw [List.length_append, List.length_singleton] at hresults
        rw [List.filterMap_cons_some hrow, List.length_cons]
        refine ⟨results', ?_, ?_, hnames.trans hvals.name⟩
        · simp only [CacheQuery.putSnaps, hdata, hval, hput, Outcome.ofOption, bind, Except.bind,
            if_pos hname, hresults]
          congr 2
          omega
        · rwa [List.append_assoc, List.singleton_append] at hrows'
      · have hrow : q.rowOf pub lf snap = none := by
          simp only [CacheQuery.rowOf, hdata, Option.bind_eq_bind, Option.bind_some, if_neg hname]
        obtain ⟨results', hresults, hrows', hnames⟩ := ih h hrest
        rw [List.filterMap_cons_none hrow]
        refine ⟨results', ?_, hrows', hnames⟩
        simp only [CacheQuery.putSnaps, hdata, Outcome.ofOption, bind, Except.bind, if_neg hname,
          hresults]

/-- A filled slot is compared to the frame to start at. -/
theorem newerThan_of_ne_nil {slot : CacheSlot} (h : slot.snaps ≠ []) :
    slot.newerThan q.frameHead = .ok (decide (¬ q.Reaches slot)) := by
  obtain ⟨first, rest, hsnaps⟩ := List.exists_cons_of_ne_nil h
  have hframe : slot.frame = .ok first.frame := by
    simp only [CacheSlot.frame, hsnaps]
  have hreaches : q.Reaches slot ↔ q.frameHead = -1 ∨ first.frame.toInt ≤ q.frameHead := by
    rw [CacheQuery.Reaches, hsnaps]
    simp only [List.head?_cons, Option.mem_some_iff, forall_eq']
  unfold CacheSlot.newerThan
  rw [hframe, decide_not]
  split_ifs with hlatest
  · rw [decide_eq_true (hreaches.mpr (.inl hlatest))]
    rfl
  · have hnewer : (!decide (q.Reaches slot)) = decide (q.frameHead < first.frame.toInt) := by
      rw [← decide_not, decide_eq_decide, hreaches]
      omega
    rw [hnewer]
    rfl

/-- An empty one is read through. -/
theorem newerThan_null : CacheSlot.null.newerThan q.frameHead =
    if q.frameHead = -1 then .ok false else .error .nullSnap := rfl

/-- **An empty slot** ends the scan, or is read through. -/
theorem visit_null (got : CacheGrab) : q.visit lf pub .null got =
    if q.frameHead = -1 then .ok (.done (.ok got)) else .error .nullSnap := by
  rw [CacheQuery.visit, newerThan_null]
  by_cases hlatest : q.frameHead = -1
  · rw [if_pos hlatest, if_pos hlatest]
    rfl
  · rw [if_neg hlatest, if_neg hlatest]
    rfl

/-- A frame that is too new is passed. -/
theorem visit_skip {slot : CacheSlot} (h : slot.snaps ≠ []) (hnewer : ¬ q.Reaches slot)
    (got : CacheGrab) : q.visit lf pub slot got = .ok (.next got) := by
  simp only [CacheQuery.visit, newerThan_of_ne_nil h, bind, Except.bind, decide_eq_true hnewer,
    if_true]

variable (lf) in
/-- **Any other frame** is taken. -/
theorem visit_take {slot : CacheSlot} {got : CacheGrab} {rows : List (List (Option CString))}
    {names : ℕ → Option CString} (hchain : slot.snaps ≠ [] ∧ slot.last = .null)
    (hsnaps : ∀ snap ∈ slot.snaps, snap.elem < pub.data.length ∧
      (snap.val.readAs snap.type).isSome)
    (hreaches : q.Reaches slot) (h : got.Holds rows names) :
    ∃ got', q.visit lf pub slot got = .ok (.next got') ∧
      got'.framesGrabbed = got.framesGrabbed + 1 ∧
      got'.Holds (rows ++ q.rowsOf pub lf [slot]) names := by
  obtain ⟨results, hput, hrows, hname⟩ := putSnaps_spec q lf h.results hsnaps
  have hone : q.rowsOf pub lf [slot] = slot.snaps.filterMap (q.rowOf pub lf) := by
    rw [CacheQuery.rowsOf, List.flatMap_singleton]
  rw [hone]
  refine ⟨⟨got.framesGrabbed + 1, rows.length + (slot.snaps.filterMap (q.rowOf pub lf)).length,
    results⟩, ?_, rfl, ⟨?_, hrows, hname.trans h.name⟩⟩
  · simp only [CacheQuery.visit, newerThan_of_ne_nil hchain.1, bind, Except.bind,
      decide_eq_false (not_not.mpr hreaches), Bool.false_eq_true, if_false, hchain.2, ne_eq,
      not_true_eq_false, hchain.1, h.row, hput]
  · rw [List.length_append]

/-! ## The frames of a pub -/

/-- The frames that are taken behind the ones that were. -/
def CacheQuery.taken (q : CacheQuery) (framesGrabbed : ℤ) (wanted : List CacheSlot) :
    List CacheSlot :=
  if q.frameDepthLimit = -1 then wanted
  else wanted.take (q.frameDepthLimit - framesGrabbed).toNat

theorem taken_of_not_more {framesGrabbed : ℤ} (h : ¬ q.More framesGrabbed)
    (wanted : List CacheSlot) : q.taken framesGrabbed wanted = [] := by
  unfold CacheQuery.More at h
  have hzero : (q.frameDepthLimit - framesGrabbed).toNat = 0 := by omega
  rw [CacheQuery.taken, if_neg (fun hnone => h (.inr hnone)), hzero, List.take_zero]

/-- One frame less may be taken behind one. -/
theorem taken_cons {framesGrabbed : ℤ} (h : q.More framesGrabbed) (slot : CacheSlot)
    (wanted : List CacheSlot) :
    q.taken framesGrabbed (slot :: wanted) = slot :: q.taken (framesGrabbed + 1) wanted := by
  unfold CacheQuery.taken
  split_ifs with hnone
  · rfl
  · have hlt := h.resolve_right hnone
    have hsucc : (q.frameDepthLimit - framesGrabbed).toNat =
        (q.frameDepthLimit - (framesGrabbed + 1)).toNat + 1 := by omega
    rw [hsucc, List.take_succ_cons]

/-- At an empty slot the scan has to start at the head, or to have taken enough. -/
theorem stops_null_iff {framesGrabbed : ℤ} {rest : List CacheSlot} :
    q.Stops framesGrabbed 0 (.null :: rest) ↔ q.frameHead = -1 ∨ ¬ q.More framesGrabbed := by
  unfold CacheQuery.Stops CacheQuery.More
  simp only [List.cons_ne_nil, false_or, Nat.cast_zero, add_zero]
  omega

/-- Where it has taken enough, it stops. -/
theorem stops_of_not_more {framesGrabbed : ℤ} (h : ¬ q.More framesGrabbed) (wanted : ℕ)
    (empty : List CacheSlot) : q.Stops framesGrabbed wanted empty := by
  unfold CacheQuery.More at h
  exact .inr (.inr ⟨fun hnone => h (.inr hnone), by omega⟩)

theorem stops_succ_iff {framesGrabbed : ℤ} {wanted : ℕ} {empty : List CacheSlot} :
    q.Stops framesGrabbed (wanted + 1) empty ↔ q.Stops (framesGrabbed + 1) wanted empty := by
  unfold CacheQuery.Stops
  rw [Nat.cast_succ, Int.add_assoc, Int.add_comm 1]

theorem reached_cons_of_pos {slot : CacheSlot} (h : q.Reaches slot) (frames : List CacheSlot) :
    q.reached (slot :: frames) = slot :: q.reached frames :=
  List.filter_cons_of_pos (decide_eq_true h)

theorem reached_cons_of_neg {slot : CacheSlot} (h : ¬ q.Reaches slot) (frames : List CacheSlot) :
    q.reached (slot :: frames) = q.reached frames :=
  List.filter_cons_of_neg (by rwa [decide_eq_true_iff])

theorem taken_nil (framesGrabbed : ℤ) : q.taken framesGrabbed [] = [] := by
  rw [CacheQuery.taken, List.take_nil, ite_self]

variable (q lf pub) in
/-- **Where a ring is empty**, the scan ends or reads through `NULL`. -/
theorem over_empty {empty : List CacheSlot} (hempty : ∀ s ∈ empty, s = .null) (got : CacheGrab) :
    (q.Stops got.framesGrabbed 0 empty →
      Loop.overList (visitMore q lf pub) .ok empty got = .ok got) ∧
    (¬ q.Stops got.framesGrabbed 0 empty →
      Loop.overList (visitMore q lf pub) .ok empty got = .error .nullSnap) := by
  cases empty with
  | nil => exact ⟨fun _ => rfl, fun hstops => absurd (.inr (.inl rfl)) hstops⟩
  | cons s rest =>
      obtain rfl := hempty s List.mem_cons_self
      have hvisit : visitMore q lf pub .null got =
          .done (if q.frameHead = -1 ∨ ¬ q.More got.framesGrabbed then .ok got
            else .error .nullSnap) := by
        unfold visitMore
        rw [visit_null]
        by_cases hmore : q.More got.framesGrabbed
        · rw [if_pos hmore]
          by_cases hlatest : q.frameHead = -1
          · rw [if_pos hlatest, if_pos (.inl hlatest)]
          · rw [if_neg hlatest, if_neg (not_or.mpr ⟨hlatest, not_not.mpr hmore⟩)]
        · rw [if_neg hmore, if_pos (.inr hmore)]
      rw [Loop.over_done hvisit, stops_null_iff]
      exact ⟨fun hstops => if_pos hstops, fun hstops => if_neg hstops⟩

variable (q lf) in
/-- **The recursion over a ring** that is filled in front: it stays in front of the
empty slots and puts the rows of the frames it takes, or it faults. -/
theorem over_spec {frames empty : List CacheSlot} {got : CacheGrab}
    {rows : List (List (Option CString))} {names : ℕ → Option CString}
    (hchains : ∀ s ∈ frames, s.snaps ≠ [] ∧ s.last = .null)
    (helems : ∀ s ∈ frames, ∀ snap ∈ s.snaps, snap.elem < pub.data.length ∧
      (snap.val.readAs snap.type).isSome)
    (hempty : ∀ s ∈ empty, s = .null) (h : got.Holds rows names) :
    (q.Stops got.framesGrabbed (q.reached frames).length empty →
      ∃ got', Loop.overList (visitMore q lf pub) .ok (frames ++ empty) got = .ok got' ∧
        got'.Holds (rows ++ q.rowsOf pub lf (q.taken got.framesGrabbed
          (q.reached frames))) names) ∧
    (¬ q.Stops got.framesGrabbed (q.reached frames).length empty →
      Loop.overList (visitMore q lf pub) .ok (frames ++ empty) got = .error .nullSnap) := by
  have hnone (rows : List (List (Option CString))) : rows ++ q.rowsOf pub lf [] = rows := by
    rw [CacheQuery.rowsOf, List.flatMap_nil, List.append_nil]
  -- the limit, the rows and the empty slots are seen from the frames that are left
  induction frames generalizing got rows with
  | nil =>
      have hreached : q.reached [] = [] := rfl
      rw [List.nil_append, hreached, List.length_nil, taken_nil, hnone]
      obtain ⟨hok, hfault⟩ := over_empty q pub lf hempty got
      exact ⟨fun hstops => ⟨got, hok hstops, h⟩, hfault⟩
  | cons slot frames ih =>
      have hchain := hchains slot List.mem_cons_self
      have hchains' := fun s hs => hchains s (List.mem_cons_of_mem slot hs)
      have helems' := fun s hs => helems s (List.mem_cons_of_mem slot hs)
      rw [List.cons_append]
      by_cases hmore : q.More got.framesGrabbed
      · by_cases hreaches : q.Reaches slot
        · obtain ⟨got', htake, hcount, hgot'⟩ := visit_take lf hchain
            (helems slot List.mem_cons_self) hreaches h
          have hvisit : visitMore q lf pub slot got = .next got' := by
            rw [visitMore, if_pos hmore, htake]
          have hrest := ih hchains' helems' hgot'
          have hrows (frames : List CacheSlot) : q.rowsOf pub lf (slot :: frames) =
              q.rowsOf pub lf [slot] ++ q.rowsOf pub lf frames :=
            (List.flatMap_append : ([slot] ++ frames).flatMap _ = _)
          rw [Loop.over_next hvisit, reached_cons_of_pos hreaches, List.length_cons, stops_succ_iff,
            taken_cons hmore, hrows, ← List.append_assoc, ← hcount]
          exact hrest
        · have hvisit : visitMore q lf pub slot got = .next got := by
            rw [visitMore, if_pos hmore, visit_skip hchain.1 hreaches]
          rw [Loop.over_next hvisit, reached_cons_of_neg hreaches]
          exact ih hchains' helems' h
      · have hvisit : visitMore q lf pub slot got = .done (.ok got) := by
          rw [visitMore, if_neg hmore]
        rw [taken_of_not_more hmore, hnone]
        exact ⟨fun _ => ⟨got, Loop.over_done hvisit, h⟩,
          fun hstops => absurd (stops_of_not_more hmore _ empty) hstops⟩

/-! ## The pubs -/

/-- The rows that a pub has in the answer. -/
def grabbed (q : CacheQuery) (lf : Double → CString) (pub : SosPub) :
    List (List (Option CString)) :=
  if q.Selects pub then q.rowsOf pub lf (q.taken 0 (q.reached pub.cachedFrames)) else []

/-- The scan of a pub stays in front of its empty slots. -/
def StopsIn (q : CacheQuery) (pub : SosPub) : Prop :=
  q.Selects pub →
    q.Stops 0 (q.reached pub.cachedFrames).length (pub.ringOrder.dropWhile (· ≠ .null))

variable (q lf) in
/-- **One pub.** -/
theorem scanPub_spec (hfilled : pub.CacheFilled) {got : CacheGrab}
    {rows : List (List (Option CString))} {names : ℕ → Option CString} (h : got.Holds rows names) :
    (StopsIn q pub → ∃ rounds got', q.scanPub lf pub rounds got = some (.ok got') ∧
      got'.Holds (rows ++ grabbed q lf pub) names) ∧
    (¬ StopsIn q pub → ∃ rounds, q.scanPub lf pub rounds got = some (.error .nullSnap)) := by
  by_cases hselects : q.Selects pub
  · have hstart : (⟨0, got.row, got.results⟩ : CacheGrab).Holds rows names :=
      ⟨h.row, h.results, h.name⟩
    obtain ⟨rounds, hreturns⟩ := scan_returns q lf hfilled.allocated hselects.1
      ⟨0, got.row, got.results⟩
    have hscan : q.scanPub lf pub rounds got = some (Loop.overList (visitMore q lf pub) .ok
        (pub.cachedFrames ++ pub.ringOrder.dropWhile (· ≠ .null)) ⟨0, got.row, got.results⟩) := by
      rw [CacheQuery.scanPub, if_pos hselects, hreturns, SosPub.cachedFrames,
        List.takeWhile_append_dropWhile]
    obtain ⟨hok, hfault⟩ := over_spec q lf hfilled.chains hfilled.elems
      hfilled.behind hstart
    unfold StopsIn grabbed
    rw [if_pos hselects]
    refine ⟨fun hstops => ?_, fun hstops => ⟨rounds, ?_⟩⟩
    · obtain ⟨got', hover, hgot'⟩ := hok (hstops hselects)
      exact ⟨rounds, got', by rw [hscan, hover], hgot'⟩
    · rw [hscan, hfault fun hin => hstops fun _ => hin]
  · refine ⟨fun _ => ⟨0, got, if_neg hselects, ?_⟩, fun hstops => ?_⟩
    · rwa [grabbed, if_neg hselects, List.append_nil]
    · exact absurd (fun hsel => absurd hsel hselects) hstops

/-- More rounds change nothing. -/
theorem scanPub_mono {rounds more : ℕ} {got : CacheGrab} {ended : Except CacheFault CacheGrab}
    (h : q.scanPub lf pub rounds got = some ended) (hle : rounds ≤ more) :
    q.scanPub lf pub more got = some ended := by
  unfold CacheQuery.scanPub at h ⊢
  split_ifs at h ⊢ with hselects
  · exact Loop.iterate_mono h hle
  · exact h

variable {pubs : List SosPub}

theorem scanPubs_mono {rounds more : ℕ} {got : CacheGrab} {ended : Except CacheFault CacheGrab}
    (h : q.scanPubs lf rounds pubs got = some ended) (hle : rounds ≤ more) :
    q.scanPubs lf more pubs got = some ended := by
  induction pubs generalizing got with
  | nil => exact h
  | cons pub rest ih =>
      unfold CacheQuery.scanPubs at h ⊢
      cases hpub : q.scanPub lf pub rounds got with
      | none =>
          rw [hpub] at h
          cases h
      | some first =>
          rw [hpub] at h
          rw [scanPub_mono hpub hle]
          cases first with
          | error fault => exact h
          | ok got' => exact ih h

variable (q lf) in
/-- **All pubs**: the rows of one behind those of the ones in front of it. -/
theorem scanPubs_spec (hfilled : ∀ pub ∈ pubs, pub.CacheFilled) {got : CacheGrab}
    {rows : List (List (Option CString))} {names : ℕ → Option CString} (h : got.Holds rows names) :
    ((∀ pub ∈ pubs, StopsIn q pub) →
      ∃ rounds got', q.scanPubs lf rounds pubs got = some (.ok got') ∧
        got'.Holds (rows ++ pubs.flatMap (grabbed q lf)) names) ∧
    ((¬ ∀ pub ∈ pubs, StopsIn q pub) →
      ∃ rounds, q.scanPubs lf rounds pubs got = some (.error .nullSnap)) := by
  induction pubs generalizing got rows with
  | nil =>
      refine ⟨fun _ => ⟨0, got, rfl, ?_⟩, fun hstops => absurd (fun pub hmem => ?_) hstops⟩
      · rwa [List.flatMap_nil, List.append_nil]
      · cases hmem
  | cons pub rest ih =>
      obtain ⟨hok, hfault⟩ := scanPub_spec q lf (hfilled pub List.mem_cons_self) h
      have hfilled' : ∀ pub' ∈ rest, pub'.CacheFilled :=
        fun pub' hmem => hfilled pub' (List.mem_cons_of_mem pub hmem)
      rw [List.forall_mem_cons]
      by_cases hfirst : StopsIn q pub
      · obtain ⟨rounds, got', hscan, hgot'⟩ := hok hfirst
        obtain ⟨hok', hfault'⟩ := ih hfilled' hgot'
        -- rounds for this pub and for the others
        have hboth {more : ℕ} {ended : Except CacheFault CacheGrab}
            (hrest : q.scanPubs lf more rest got' = some ended) :
            q.scanPubs lf (max rounds more) (pub :: rest) got = some ended := by
          rw [CacheQuery.scanPubs, scanPub_mono hscan (le_max_left rounds more)]
          exact scanPubs_mono hrest (le_max_right rounds more)
        refine ⟨fun hstops => ?_, fun hstops => ?_⟩
        · obtain ⟨more, last, hrest, hlast⟩ := hok' hstops.2
          refine ⟨max rounds more, last, hboth hrest, ?_⟩
          rwa [List.flatMap_cons, ← List.append_assoc]
        · obtain ⟨more, hrest⟩ := hfault' fun hall => hstops ⟨hfirst, hall⟩
          exact ⟨max rounds more, hboth hrest⟩
      · obtain ⟨rounds, hscan⟩ := hfault hfirst
        refine ⟨fun hstops => absurd hstops.1 hfirst, fun _ => ⟨rounds, ?_⟩⟩
        rw [CacheQuery.scanPubs, hscan]

/-! ## The whole query -/

variable {results : ResultsTable} {duration : Double}

theorem toResults_mono {rounds more : ℕ} {ended : Except CacheFault ResultsTable}
    (h : q.toResults lf rounds pubs results duration = some ended) (hle : rounds ≤ more) :
    q.toResults lf more pubs results duration = some ended := by
  unfold CacheQuery.toResults at h ⊢
  cases hnames : ResultsTable.putNames 0 cacheNames results with
  | none => rwa [hnames] at h
  | some named =>
      rw [hnames] at h
      obtain ⟨got, hscan, hgot⟩ := Option.map_eq_some_iff.mp h
      exact Option.map_eq_some_iff.mpr ⟨got, scanPubs_mono hscan hle, hgot⟩

variable (q lf duration) in
/-- **A query of well-shaped caches**: the scan puts what it takes, or faults. -/
theorem toResults_spec (hfilled : ∀ pub ∈ pubs, pub.CacheFilled) (h : results.HoldsRows []) :
    ((∀ pub ∈ pubs, StopsIn q pub) →
      ∃ rounds t, q.toResults lf rounds pubs results duration = some (.ok t) ∧
        t.HoldsRows (pubs.flatMap (grabbed q lf)) ∧
        ∀ col < cacheNames.length, t.name col = cacheNames[col]?) ∧
    ((¬ ∀ pub ∈ pubs, StopsIn q pub) →
      ∃ rounds, q.toResults lf rounds pubs results duration = some (.error .nullSnap)) := by
  have hroom : 0 + cacheNames.length ≤ results.colMax + sosaDefaultResultColMax :=
    Nat.le_add_left 14 results.colMax
  obtain ⟨named, hnamed, hnames⟩ := h.shape.putNames hroom
  have hstart : (⟨0, 0, named⟩ : CacheGrab).Holds [] named.name :=
    ⟨rfl, h.putNames hnames, rfl⟩
  have hcall (rounds : ℕ) : q.toResults lf rounds pubs results duration =
      (q.scanPubs lf rounds pubs ⟨0, 0, named⟩).map fun ended =>
        ended.map fun got => { got.results with execDuration := duration } := by
    rw [CacheQuery.toResults, hnamed]
  obtain ⟨hok, hfault⟩ := scanPubs_spec q lf hfilled hstart
  refine ⟨fun hstops => ?_, fun hstops => ?_⟩
  · obtain ⟨rounds, got, hscan, hgot⟩ := hok hstops
    have hrows := hgot.results
    rw [List.nil_append] at hrows
    refine ⟨rounds, { got.results with execDuration := duration }, ?_, ?_, fun col hcol => ?_⟩
    · rw [hcall, hscan]
      rfl
    · exact hrows.same ⟨hrows.shape.names, hrows.shape.data⟩ rfl rfl rfl le_rfl le_rfl
    · show got.results.name col = _
      rw [hgot.name, hnames.name, if_pos (by omega), Nat.sub_zero]
  · obtain ⟨rounds, hscan⟩ := hfault hstops
    refine ⟨rounds, ?_⟩
    rw [hcall, hscan]
    rfl

/-- **The scan always ends.** -/
theorem toResults_terminates (hfilled : ∀ pub ∈ pubs, pub.CacheFilled) (h : results.HoldsRows []) :
    ∃ rounds ended, q.toResults lf rounds pubs results duration = some ended := by
  obtain ⟨hok, hfault⟩ := toResults_spec q lf duration hfilled h
  by_cases hstops : ∀ pub ∈ pubs, StopsIn q pub
  · obtain ⟨rounds, t, ht, -⟩ := hok hstops
    exact ⟨rounds, _, ht⟩
  · obtain ⟨rounds, hended⟩ := hfault hstops
    exact ⟨rounds, _, hended⟩

/-! ## What is found and what should be -/

/-- A pub that caches nothing has no frames. -/
theorem cachedFrames_of_depth (hfilled : pub.CacheFilled) (hdepth : ¬ 0 < pub.cacheDepth) :
    pub.cachedFrames = [] := by
  have hlength := hfilled.allocated.length
  have hring : pub.ringOrder = [] := by
    rw [← List.length_eq_zero_iff, SosPub.length_ringOrder]
    omega
  rw [SosPub.cachedFrames, hring, List.takeWhile_nil]

/-- **With any limit but zero** the rows are the ones that should be there. -/
theorem grabbed_eq_answer (hfilled : pub.CacheFilled) (hlimit : q.frameDepthLimit ≠ 0) :
    grabbed q lf pub = q.answer pub lf := by
  have hframes : q.taken 0 (q.reached pub.cachedFrames) = q.framesOf pub := by
    unfold CacheQuery.taken CacheQuery.framesOf
    by_cases hall : q.frameDepthLimit = -1
    · rw [if_pos hall, if_pos (.inl hall)]
    · rw [if_neg hall, if_neg (fun hnone => hnone.elim hall hlimit), sub_zero]
  rw [grabbed, CacheQuery.answer, hframes]
  by_cases htitle : q.pubFilter.bytes <:+: pub.title.bytes
  · rw [if_pos htitle]
    by_cases hdepth : 0 < pub.cacheDepth
    · rw [if_pos ⟨hdepth, htitle⟩]
    · have hnone : q.framesOf pub = [] := by
        rw [CacheQuery.framesOf, cachedFrames_of_depth hfilled hdepth]
        split_ifs
        · rfl
        · exact List.take_nil
      rw [if_neg (fun hboth => hdepth hboth.1), hnone]
      rfl
  · rw [if_neg htitle, if_neg (fun hboth => htitle hboth.2)]

/-- **With a limit of zero** there are none. -/
theorem grabbed_zero (hlimit : q.frameDepthLimit = 0) : grabbed q lf pub = [] := by
  have hmore : ¬ q.More 0 := by
    unfold CacheQuery.More
    omega
  rw [grabbed, taken_of_not_more hmore]
  split_ifs <;> rfl

theorem stopsIn_zero (hlimit : q.frameDepthLimit = 0) : StopsIn q pub := by
  intro _
  refine .inr (.inr ⟨?_, ?_⟩)
  · rw [hlimit]
    decide
  · rw [hlimit]
    omega

/-- A snapshot has a row if its name contains the filter. -/
theorem rowOf_eq_none_iff {snap : SosValSnap} (helem : snap.elem < pub.data.length)
    (htyped : (snap.val.readAs snap.type).isSome) :
    q.rowOf pub lf snap = none ↔ ¬ q.Names pub snap := by
  obtain ⟨val, hval⟩ := exists_snapStr lf htyped
  have hdata : pub.data[snap.elem]? = some pub.data[snap.elem] := List.getElem?_eq_getElem helem
  have hnames : q.Names pub snap ↔ q.valFilter.bytes <:+: pub.data[snap.elem].name.bytes := by
    rw [CacheQuery.Names, hdata]
    exact ⟨fun ⟨_, hmem, hin⟩ => Option.some.inj hmem ▸ hin, fun hin => ⟨_, rfl, hin⟩⟩
  rw [hnames]
  by_cases hin : q.valFilter.bytes <:+: pub.data[snap.elem].name.bytes
  · have hrow : q.rowOf pub lf snap = some (cacheRow lf pub snap pub.data[snap.elem].name val) := by
      simp only [CacheQuery.rowOf, hdata, hval, Option.bind_eq_bind, Option.bind_some, if_pos hin]
    rw [hrow]
    exact iff_of_false (Option.some_ne_none _) (not_not.mpr hin)
  · have hrow : q.rowOf pub lf snap = none := by
      simp only [CacheQuery.rowOf, hdata, Option.bind_eq_bind, Option.bind_some, if_neg hin]
    exact iff_of_true hrow hin

/-- **Nothing should be there** where no name contains the filter. -/
theorem answer_zero_iff (hfilled : pub.CacheFilled) (hlimit : q.frameDepthLimit = 0) :
    q.answer pub lf = [] ↔ q.Meets pub := by
  have hframes : q.framesOf pub = q.reached pub.cachedFrames := if_pos (.inr hlimit)
  have hrows : q.rowsOf pub lf (q.reached pub.cachedFrames) = [] ↔
      ∀ slot ∈ q.reached pub.cachedFrames, ∀ snap ∈ slot.snaps, ¬ q.Names pub snap := by
    rw [CacheQuery.rowsOf, List.flatMap_eq_nil_iff]
    refine forall₂_congr fun slot hslot => ?_
    rw [List.filterMap_eq_nil_iff]
    refine forall₂_congr fun snap hsnap => ?_
    obtain ⟨helem, htyped⟩ := hfilled.elems slot (List.mem_of_mem_filter hslot) snap hsnap
    exact rowOf_eq_none_iff helem htyped
  unfold CacheQuery.Meets
  rw [if_pos hlimit, CacheQuery.answer, hframes]
  by_cases htitle : q.pubFilter.bytes <:+: pub.title.bytes
  · rw [if_pos htitle, hrows]
    by_cases hdepth : 0 < pub.cacheDepth
    · exact ⟨fun hnone _ => hnone, fun hnone => hnone ⟨hdepth, htitle⟩⟩
    · have hempty : q.reached pub.cachedFrames = [] := by
        rw [cachedFrames_of_depth hfilled hdepth]
        rfl
      rw [hempty]
      exact iff_of_true (fun slot hslot => absurd hslot List.not_mem_nil)
        (fun hselects => absurd hselects.1 hdepth)
  · rw [if_neg htitle]
    exact iff_of_true rfl fun hselects => absurd hselects.2 htitle

/-- **What is answered right** meets the condition. -/
theorem meets_of_answeredRight (hfilled : ∀ pub ∈ pubs, pub.CacheFilled) (h : results.HoldsRows [])
    (hright : q.AnsweredRight lf pubs results duration) : ∀ pub ∈ pubs, q.Meets pub := by
  obtain ⟨hok, hfault⟩ := toResults_spec q lf duration hfilled h
  obtain ⟨rounds, t, ht, hrows, -⟩ := hright
  -- the scan ends in one way
  have hstops : ∀ pub ∈ pubs, StopsIn q pub := by
    by_contra hout
    obtain ⟨more, hended⟩ := hfault hout
    have hboth := (toResults_mono ht (le_max_left rounds more)).symm.trans
      (toResults_mono hended (le_max_right rounds more))
    cases Option.some.inj hboth
  intro pub hmem
  by_cases hlimit : q.frameDepthLimit = 0
  · obtain ⟨more, t', ht', hrows', -⟩ := hok hstops
    have hboth := (toResults_mono ht (le_max_left rounds more)).symm.trans
      (toResults_mono ht' (le_max_right rounds more))
    obtain rfl : t = t' := Except.ok.inj (Option.some.inj hboth)
    have hnone : pubs.flatMap (grabbed q lf) = [] :=
      List.flatMap_eq_nil_iff.mpr fun _ _ => grabbed_zero hlimit
    rw [hnone] at hrows'
    have hlength := hrows.rowCount.symm.trans hrows'.rowCount
    exact (answer_zero_iff (hfilled pub hmem) hlimit).mp
      (List.flatMap_eq_nil_iff.mp (List.length_eq_zero_iff.mp hlength) pub hmem)
  · unfold CacheQuery.Meets
    rw [if_neg hlimit]
    exact hstops pub hmem

/-- **And what meets it** is answered right. -/
theorem answeredRight_of_meets (hfilled : ∀ pub ∈ pubs, pub.CacheFilled) (h : results.HoldsRows [])
    (hmeets : ∀ pub ∈ pubs, q.Meets pub) : q.AnsweredRight lf pubs results duration := by
  obtain ⟨hok, -⟩ := toResults_spec q lf duration hfilled h
  have hstops : ∀ pub ∈ pubs, StopsIn q pub := by
    intro pub hmem
    by_cases hlimit : q.frameDepthLimit = 0
    · exact stopsIn_zero hlimit
    · have hpub := hmeets pub hmem
      unfold CacheQuery.Meets at hpub
      rwa [if_neg hlimit] at hpub
  have hsame : pubs.flatMap (grabbed q lf) = pubs.flatMap fun pub => q.answer pub lf := by
    refine List.flatMap_congr fun pub hmem => ?_
    by_cases hlimit : q.frameDepthLimit = 0
    · rw [grabbed_zero hlimit, (answer_zero_iff (hfilled pub hmem) hlimit).mpr (hmeets pub hmem)]
    · exact grabbed_eq_answer (hfilled pub hmem) hlimit
  obtain ⟨rounds, t, ht, hrows, hnames⟩ := hok hstops
  rw [hsame] at hrows
  exact ⟨rounds, t, ht, hrows, hnames⟩

end

/-- **A pub with a cache that is well shaped.** -/
structure CachedPub where
  pub : SosPub
  filled : pub.CacheFilled

/-- **When a query is answered right.** -/
theorem answeredRight_iff (lf : Double → CString) (q : CacheQuery) (pubs : List CachedPub)
    (rowsIncoming colsIncoming : ℕ) (duration : Double) :
    q.AnsweredRight lf (pubs.map CachedPub.pub)
        (ResultsTable.initSized rowsIncoming colsIncoming) duration ↔
      ∀ p ∈ pubs, q.Meets p.pub := by
  have hfilled : ∀ pub ∈ pubs.map CachedPub.pub, pub.CacheFilled := by
    intro pub hmem
    obtain ⟨p, -, rfl⟩ := List.mem_map.mp hmem
    exact p.filled
  have hempty := TableRun.holdsRows_initSized rowsIncoming colsIncoming
  rw [← List.forall_mem_map (f := CachedPub.pub)]
  exact ⟨meets_of_answeredRight hfilled hempty, answeredRight_of_meets hfilled hempty⟩

/-- **The frames to take come newest first.** -/
theorem framesOf_newest_first (q : CacheQuery) (p : CachedPub) :
    (q.framesOf p.pub).Pairwise fun s s' => ∀ snap ∈ s.snaps.head?, ∀ snap' ∈ s'.snaps.head?,
      snap'.frame.toInt < snap.frame.toInt := by
  have hreached := p.filled.decreasing.sublist (List.filter_sublist (p := fun slot =>
    decide (q.Reaches slot)))
  unfold CacheQuery.framesOf
  split_ifs with hall
  · exact hreached
  · exact hreached.sublist (List.take_sublist _ _)

/-! ## The frames of the walk -/

section

variable {q : CacheQuery} {pub : SosPub} {slot : CacheSlot} {k rounds : ℕ} {framesGrabbed : ℤ}

/-- The walk through the cache, at a place of the ring. -/
def walkAt (q : CacheQuery) (pub : SosPub) (rounds k : ℕ) (framesGrabbed : ℤ) :
    Except CacheFault (List CacheSlot) :=
  cacheWalk pub q.frameHead q.frameDepthLimit rounds (ringPos pub k)
    (if k = 0 then -1 else pub.cacheHead) framesGrabbed

/-- One round of it. -/
theorem walkAt_succ (h : pub.Allocated) (hk : pub.ringOrder[k]? = some slot)
    (hmore : q.More framesGrabbed) (hchain : slot.last = .null) :
    walkAt q pub (rounds + 1) k framesGrabbed = (slot.newerThan q.frameHead).bind fun newer =>
      if newer then walkAt q pub rounds (k + 1) framesGrabbed
      else if slot.snaps = [] then .ok []
      else (walkAt q pub rounds (k + 1) (framesGrabbed + 1)).map (slot :: ·) := by
  obtain ⟨hlt, -⟩ := List.getElem?_eq_some_iff.mp hk
  rw [SosPub.length_ringOrder] at hlt
  unfold walkAt
  rw [cacheWalk, if_pos ⟨ringPos_ne_stop h hlt, hmore⟩, slot_ringPos h hk, nextPos_ringPos h hlt,
    if_neg (Nat.succ_ne_zero k)]
  show (slot.newerThan q.frameHead).bind _ = _
  congr 1
  funext newer
  obtain ⟨snaps, last⟩ := slot
  obtain rfl : last = .null := hchain
  cases newer with
  | true => rfl
  | false =>
      cases snaps with
      | nil => rfl
      | cons snap rest =>
          rw [if_neg (List.cons_ne_nil snap rest)]
          rfl

/-- It has taken enough frames, or is around. -/
theorem walkAt_end (hend : ¬ q.More framesGrabbed ∨ pub.Allocated ∧ 0 < pub.cacheDepth ∧
    k = pub.ringOrder.length) : walkAt q pub rounds k framesGrabbed = .ok [] := by
  unfold walkAt
  cases rounds with
  | zero => rfl
  | succ rounds =>
      rw [cacheWalk, if_neg ?_]
      rintro ⟨hne, hmore⟩
      rcases hend with hno | ⟨h, hpos, rfl⟩
      · exact hno hmore
      · obtain ⟨hzero, hlast⟩ := ringPos_length h hpos
        rw [hlast, if_neg hzero] at hne
        exact hne rfl

/-- The first of the items that are left, and the ones behind it. -/
theorem getElem?_of_drop {α : Type} {xs rest : List α} {x : α} (h : xs.drop k = x :: rest) :
    xs[k]? = some x ∧ xs.drop (k + 1) = rest := by
  constructor
  · rw [← Nat.add_zero k, ← List.getElem?_drop, h, List.getElem?_cons_zero]
  · rw [← List.drop_drop, h, List.drop_one, List.tail_cons]

variable (q framesGrabbed) in
/-- **The walk finds the frames that the scan takes**, and faults where it does. -/
theorem walkAt_spec (h : pub.Allocated) (hpos : 0 < pub.cacheDepth) {frames empty : List CacheSlot}
    (hchains : ∀ s ∈ frames, s.snaps ≠ [] ∧ s.last = .null) (hempty : ∀ s ∈ empty, s = .null)
    (hk : k ≤ pub.ringOrder.length) (hdrop : pub.ringOrder.drop k = frames ++ empty)
    (hrounds : frames.length + empty.length < rounds) :
    (q.Stops framesGrabbed (q.reached frames).length empty →
      walkAt q pub rounds k framesGrabbed = .ok (q.taken framesGrabbed (q.reached frames))) ∧
    (¬ q.Stops framesGrabbed (q.reached frames).length empty →
      walkAt q pub rounds k framesGrabbed = .error .nullSnap) := by
  obtain ⟨rounds, rfl⟩ := Nat.exists_eq_add_of_lt hrounds
  clear hrounds
  induction frames generalizing k framesGrabbed with
  | nil =>
      have hreached : q.reached [] = [] := rfl
      rw [hreached, List.length_nil, taken_nil]
      cases empty with
      | nil =>
          have hlast : k = pub.ringOrder.length :=
            le_antisymm hk (List.drop_eq_nil_iff.mp hdrop)
          exact ⟨fun _ => walkAt_end (.inr ⟨h, hpos, hlast⟩),
            fun hstops => absurd (.inr (.inl rfl)) hstops⟩
      | cons s rest =>
          obtain rfl := hempty s List.mem_cons_self
          obtain ⟨hat, -⟩ := getElem?_of_drop hdrop
          rw [stops_null_iff]
          by_cases hmore : q.More framesGrabbed
          · rw [List.length_cons, ← Nat.add_assoc, walkAt_succ h hat hmore rfl, newerThan_null]
            refine ⟨fun hstops => ?_, fun hstops => ?_⟩
            · rw [if_pos (hstops.resolve_right (not_not.mpr hmore))]
              rfl
            · rw [if_neg fun hlatest => hstops (.inl hlatest)]
              rfl
          · exact ⟨fun _ => walkAt_end (.inl hmore), fun hstops => absurd (.inr hmore) hstops⟩
  | cons slot frames ih =>
      obtain ⟨hne, hnull⟩ := hchains slot List.mem_cons_self
      obtain ⟨hat, hdrop'⟩ := getElem?_of_drop hdrop
      obtain ⟨hlt, -⟩ := List.getElem?_eq_some_iff.mp hat
      have ih' (framesGrabbed : ℤ) := ih framesGrabbed
        (fun s hs => hchains s (List.mem_cons_of_mem slot hs)) hlt hdrop'
      by_cases hmore : q.More framesGrabbed
      · have hround : (slot :: frames).length + empty.length + rounds =
            frames.length + empty.length + rounds + 1 := by
          rw [List.length_cons]
          omega
        rw [hround, walkAt_succ h hat hmore hnull, newerThan_of_ne_nil hne]
        by_cases hreaches : q.Reaches slot
        · rw [reached_cons_of_pos hreaches, List.length_cons, stops_succ_iff, taken_cons hmore,
            decide_eq_false (not_not.mpr hreaches)]
          obtain ⟨hok, hfault⟩ := ih' (framesGrabbed + 1)
          have hround (found : Except CacheFault (List CacheSlot)) :
              ((Except.ok false).bind fun newer => if newer = true
                then walkAt q pub (frames.length + empty.length + rounds + 1) (k + 1) framesGrabbed
                else if slot.snaps = [] then .ok [] else found) = found := if_neg hne
          rw [hround]
          refine ⟨fun hstops => ?_, fun hstops => ?_⟩
          · rw [hok hstops]
            rfl
          · rw [hfault hstops]
            rfl
        · rw [reached_cons_of_neg hreaches, decide_eq_true hreaches]
          exact ih' framesGrabbed
      · rw [taken_of_not_more hmore]
        exact ⟨fun _ => walkAt_end (.inl hmore),
          fun hstops => absurd (stops_of_not_more hmore _ empty) hstops⟩

/-- **The frames that are found in a pub** are those whose rows the scan puts. -/
theorem sosaCacheToResults_spec (hfilled : pub.CacheFilled) (hselects : q.Selects pub)
    (hrounds : pub.slots.length < rounds) :
    (StopsIn q pub → sosaCacheToResults pub q.frameHead q.frameDepthLimit rounds =
      .ok (q.taken 0 (q.reached pub.cachedFrames))) ∧
    (¬ StopsIn q pub → sosaCacheToResults pub q.frameHead q.frameDepthLimit rounds =
      .error .nullSnap) := by
  have hsplit : pub.cachedFrames ++ pub.ringOrder.dropWhile (· ≠ .null) = pub.ringOrder :=
    List.takeWhile_append_dropWhile
  have hlength : pub.cachedFrames.length + (pub.ringOrder.dropWhile (· ≠ .null)).length <
      rounds := by
    rwa [← List.length_append, hsplit, SosPub.length_ringOrder]
  have hwalk : sosaCacheToResults pub q.frameHead q.frameDepthLimit rounds =
      walkAt q pub rounds 0 0 := by
    rw [sosaCacheToResults, if_pos hselects.1, walkAt, ringPos_zero hfilled.allocated hselects.1,
      if_pos rfl]
  obtain ⟨hok, hfault⟩ := walkAt_spec q 0 hfilled.allocated hselects.1
    hfilled.chains hfilled.behind (Nat.zero_le _) hsplit.symm hlength
  rw [hwalk]
  exact ⟨fun hstops => hok (hstops hselects), fun hstops => hfault fun hin => hstops fun _ => hin⟩

end

/-! ## A ring of two slots -/

/-- A snapshot of frame five. -/
def fifthFrame : SosValSnap := { (default : SosValSnap) with elem := 0, frame := 5 }

/-- Its pub, of one element, whose cache has one more slot. -/
def halfFilled : SosPub :=
  { (default : SosPub) with
    cache := some [⟨[fifthFrame], .null⟩, .null]
    cacheHead := 0
    cacheDepth := 2
    data := [default] }

theorem halfFilled_filled : halfFilled.CacheFilled where
  allocated := ⟨rfl, le_rfl, .inl (by decide)⟩
  behind := by decide
  chains := by decide
  elems := by decide
  decreasing := by decide

/-- A query of that frame and what is behind it, in every pub and of every name. -/
def fromFifth : CacheQuery := ⟨literal "", literal "", 5, -1⟩

/-- One of the latest frame, with a limit of zero. -/
def zeroLimit : CacheQuery := ⟨literal "", literal "", -1, 0⟩

/-- What `"%lf"` leaves of zero. -/
def zeroStr (_ : Double) : CString := literal "0.000000"

/-- **Neither is answered right**: the first reads through `NULL` behind the frame, and
the second has no row for it. -/
theorem not_answeredRight : halfFilled.CacheFilled ∧
    ¬ fromFifth.AnsweredRight zeroStr [halfFilled] ResultsTable.init 0 ∧
    ¬ zeroLimit.AnsweredRight zeroStr [halfFilled] ResultsTable.init 0 := by
  have hfilled : ∀ pub ∈ [halfFilled], pub.CacheFilled := by
    intro pub hmem
    rw [List.mem_singleton.mp hmem]
    exact halfFilled_filled
  have hempty : ResultsTable.init.HoldsRows [] := TableRun.holdsRows_initSized _ _
  have hselects (q : CacheQuery) (hall : q.pubFilter.bytes = []) : q.Selects halfFilled := by
    refine ⟨by decide, ?_⟩
    rw [hall]
    exact List.nil_infix
  have hmeets {q : CacheQuery} (hright : q.AnsweredRight zeroStr [halfFilled] ResultsTable.init 0) :
      q.Meets halfFilled :=
    meets_of_answeredRight hfilled hempty hright halfFilled List.mem_cons_self
  refine ⟨halfFilled_filled, fun hright => ?_, fun hright => ?_⟩
  · have hring : halfFilled.ringOrder.dropWhile (· ≠ .null) = [.null] := by decide
    have hstops := hmeets hright (hselects fromFifth rfl)
    rw [if_neg (by decide), hring] at hstops
    rcases hstops with hhead | hnone | ⟨hlimit, -⟩
    · exact absurd hhead (by decide)
    · exact absurd hnone (List.cons_ne_nil _ _)
    · exact hlimit rfl
  · have hlimit : zeroLimit.frameDepthLimit = 0 := rfl
    have hquiet := hmeets hright (hselects zeroLimit rfl)
    rw [if_pos hlimit] at hquiet
    exact hquiet ⟨[fifthFrame], .null⟩ (by decide) fifthFrame List.mem_cons_self
      ⟨default, rfl, List.nil_infix⟩

end SosFlow
