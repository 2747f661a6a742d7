import SosFlow.Pub.Cache

/-!
# Packing a value into a publication

`SOS_pack` records a value twice: as the element's newest value, which is
then DIRTY, and as a snapshot at the end of the pub's queue. It looks the
name up, makes an element for a new one, and copies the value; a daemon
also links the snapshot into the pub's cache.

What `SOS_uid_next` and the clock would return is passed in. Two values do
not pack. A block is refused, and the lock of the pub is never given back;
and a number where the element is a string, or the other way round, is an
address that is none.
-/

namespace SosFlow

open Outcome

/-- `SOS->role`, as far as packing asks for it. -/
inductive SosRole where
  | client
  | daemon
deriving DecidableEq

/-- What stops `SOS_pack`. -/
inductive PackFault where
  | refused
  | badVal
  | cache (fault : CacheFault)
deriving DecidableEq

/-- **The arguments of `SOS_pack_related`**, those of `SOS_pack` with
`relationId` zero, and what it would read from the clock and the guid pool. -/
structure PackArgs where
  name : CString
  val : SosVal
  relationId : SosGuid
  guid : SosGuid
  now : Double
deriving DecidableEq

namespace SosPub

/-- There is an element to spare. -/
def growForElem (pub : SosPub) : SosPub :=
  if pub.spare = [] then sosExpandData pub else pub

/-- The first spare element, as a new name sets it up. -/
def newData (pub : SosPub) (guid : SosGuid) (name : CString) (type : ValType) : SosData :=
  { pub.growForElem.spare.headD .blank with
    type, guid, val := .long 0, valLen := 0, name := name.take sosDefaultStringLen }

/-- The element of a new name, behind the others. -/
def addElem (pub : SosPub) (guid : SosGuid) (name : CString) (type : ValType) : SosPub :=
  { pub.growForElem with
    announced := false
    data := pub.growForElem.data ++ [pub.newData guid name type]
    spare := pub.growForElem.spare.tail
    nameTable := pub.growForElem.nameTable ++ [(name, pub.elemCount)] }

/-- The pub with an element for the name. -/
def withElem (pub : SosPub) (guid : SosGuid) (name : CString) (type : ValType) : SosPub :=
  match sosPubSearch pub name with
  | some _ => pub
  | none => pub.addElem guid name type

/-- The position of that element. -/
def elemPos (pub : SosPub) (name : CString) : ℕ := (sosPubSearch pub name).getD pub.elemCount

variable (pub : SosPub) (guid : SosGuid) (name : CString) (type : ValType)

/-- Growing changes nothing but the spare elements, which stay or are blank. -/
theorem growForElem_eq : ∃ spare, pub.growForElem = { pub with spare := spare } ∧
    ∀ data ∈ spare, data ∈ pub.spare ∨ data = .blank := by
  unfold growForElem
  split
  case isTrue =>
    refine ⟨_, rfl, fun data hdata => ?_⟩
    exact (List.mem_append.mp hdata).imp_right List.eq_of_mem_replicate
  case isFalse => exact ⟨pub.spare, rfl, fun data => .inl⟩

@[simp] theorem data_addElem :
    (pub.addElem guid name type).data = pub.data ++ [pub.newData guid name type] := by
  obtain ⟨spare, hgrow, -⟩ := pub.growForElem_eq
  simp only [addElem, hgrow]

@[simp] theorem guid_addElem : (pub.addElem guid name type).guid = pub.guid := by
  obtain ⟨spare, hgrow, -⟩ := pub.growForElem_eq
  simp only [addElem, hgrow]

@[simp] theorem frame_addElem : (pub.addElem guid name type).frame = pub.frame := by
  obtain ⟨spare, hgrow, -⟩ := pub.growForElem_eq
  simp only [addElem, hgrow]

@[simp] theorem announced_addElem : (pub.addElem guid name type).announced = false := rfl

variable {name} in
theorem sosPubSearch_addElem (h : sosPubSearch pub name = none) (other : CString) :
    sosPubSearch (pub.addElem guid name type) other =
      if other = name then some pub.elemCount else sosPubSearch pub other := by
  obtain ⟨spare, hgrow, -⟩ := pub.growForElem_eq
  unfold sosPubSearch at h ⊢
  simp only [addElem, hgrow, List.lookup_append]
  by_cases hname : other = name
  · rw [if_pos hname, hname, h, List.lookup_cons_self, Option.none_or]
  · rw [if_neg hname, List.lookup_cons, beq_false_of_ne hname]
    exact Option.or_none

theorem mem_spare_addElem {data : SosData} (h : data ∈ (pub.addElem guid name type).spare) :
    data ∈ pub.spare ∨ data = .blank := by
  obtain ⟨spare, hgrow, hspare⟩ := pub.growForElem_eq
  simp only [addElem, hgrow] at h
  exact hspare data (List.mem_of_mem_tail h)

/-- The state of a new element is that of a spare one. -/
theorem state_newData : ∃ data, (data ∈ pub.spare ∨ data = .blank) ∧
    (pub.newData guid name type).state = data.state := by
  obtain ⟨spare, hgrow, hspare⟩ := pub.growForElem_eq
  simp only [newData, hgrow]
  cases spare with
  | nil => exact ⟨.blank, .inr rfl, rfl⟩
  | cons data rest => exact ⟨data, hspare data List.mem_cons_self, rfl⟩

end SosPub

/-- The length a snapshot has before its element is known. -/
def SosVal.snapLen : SosVal → CInt
  | .string c => intOf c.length
  | _ => 0

/-- **`SOS_pack_snap_situate_in_pub`**, with the relation that
`SOS_pack_related` puts into its snapshot. -/
def sosPackSnapSituateInPub (pub : SosPub) (a : PackArgs) :
    Except PackFault (SosPub × SosValSnap) :=
  if a.val.type = .bytes then .error .refused
  else do
    let placed := pub.withElem a.guid a.name a.val.type
    let data ← ofOption .badVal placed.data[pub.elemPos a.name]?
    .ok (placed,
      { elem := pub.elemPos a.name
        guid := data.guid
        pubGuid := pub.guid
        relationId := a.relationId
        frame := pub.frame
        time := ⟨0, 0, 0⟩
        semantic := 0
        type := data.type
        valLen := a.val.snapLen
        val := a.val })

/-- The element's copy of a value that is read as its type, and its length.
A string is copied up to the default length. -/
def renewVal (type : ValType) (val : SosVal) : Option (SosVal × CInt) :=
  match val.readAs type with
  | some (.int i) => some (.int i, 4)
  | some (.long l) => some (.long l, 8)
  | some (.double d) => some (.double d, 8)
  | some (.string c) => some (.string (c.take sosDefaultStringLen), intOf c.length)
  | _ => none

/-- An element with a new value. -/
def SosData.renew (data : SosData) (v : SosVal × CInt) (now : Double) : SosData :=
  { data with val := v.1, valLen := v.2, state := .dirty, time := { data.time with pack := now } }

/-- A snapshot with its packing time. -/
def SosValSnap.packedAt (snap : SosValSnap) (now : Double) : SosValSnap :=
  { snap with time := { snap.time with pack := now } }

/-- **`SOS_pack_snap_renew_pub_data`.** -/
def sosPackSnapRenewPubData (pub : SosPub) (snap : SosValSnap) (now : Double) :
    Except PackFault (SosPub × SosValSnap) := do
  let data ← ofOption .badVal pub.data[snap.elem]?
  let v ← ofOption .badVal (renewVal snap.type snap.val)
  .ok ({ pub with data := pub.data.set snap.elem (data.renew v now) }, snap.packedAt now)

/-- The cache, which a client does not keep. -/
def packIntoCache (role : SosRole) (pub : SosPub) (snap : SosValSnap) : Except PackFault SosPub :=
  match role with
  | .client => .ok pub
  | .daemon => (sosPackSnapAddToPubCache pub snap).mapError .cache

/-- `SOS_pack_snap_into_val_queue`, which does nothing without a queue. -/
def sosPackSnapIntoValQueue (queue : Option (SosPipe SosValSnap)) (snap : SosValSnap) :
    Option (SosPipe SosValSnap) :=
  queue.map (·.push snap)

/-- **`SOS_pack_related`.** -/
def sosPackRelated (role : SosRole) (pub : SosPub) (queue : Option (SosPipe SosValSnap))
    (a : PackArgs) : Except PackFault (SosPub × Option (SosPipe SosValSnap)) := do
  let placed ← sosPackSnapSituateInPub pub a
  let renewed ← sosPackSnapRenewPubData placed.1 placed.2 a.now
  let cached ← packIntoCache role renewed.1 renewed.2
  .ok (cached, sosPackSnapIntoValQueue queue renewed.2)

/-! ## What packing leaves -/

/-- The pub with the element's new value. -/
def SosPub.setElem (pub : SosPub) (pos : ℕ) (data : SosData) : SosPub :=
  { pub with data := pub.data.set pos data }

/-- A new element is set behind the others. -/
theorem SosPub.data_setElem_addElem (pub : SosPub) (guid : SosGuid) (name : CString)
    (type : ValType) (data : SosData) :
    ((pub.addElem guid name type).setElem pub.elemCount data).data = pub.data ++ [data] := by
  have hset : (pub.addElem guid name type).data.set pub.data.length data = pub.data ++ [data] := by
    simp
  exact hset

/-- The snapshot `SOS_pack_related` makes of its arguments. -/
def PackArgs.snap (a : PackArgs) (pub : SosPub) (pos : ℕ) (data : SosData) : SosValSnap where
  elem := pos
  guid := data.guid
  pubGuid := pub.guid
  relationId := a.relationId
  frame := pub.frame
  time := ⟨a.now, 0, 0⟩
  semantic := 0
  type := data.type
  valLen := a.val.snapLen
  val := a.val

/-- **What `SOS_pack_related` does**: the element of the name, made if it is
new, takes the value, the cache is told if there is one, and one snapshot goes
into the queue. -/
theorem sosPackRelated_eq_ok {role : SosRole} {pub pub' : SosPub}
    {queue queue' : Option (SosPipe SosValSnap)} {a : PackArgs} :
    sosPackRelated role pub queue a = .ok (pub', queue') ↔
      a.val.type ≠ .bytes ∧ ∃ data v,
        (pub.withElem a.guid a.name a.val.type).data[pub.elemPos a.name]? = some data ∧
        renewVal data.type a.val = some v ∧
        packIntoCache role ((pub.withElem a.guid a.name a.val.type).setElem (pub.elemPos a.name)
          (data.renew v a.now)) (a.snap pub (pub.elemPos a.name) data) = .ok pub' ∧
        queue' = queue.map (·.push (a.snap pub (pub.elemPos a.name) data)) := by
  unfold sosPackRelated sosPackSnapSituateInPub
  by_cases hbytes : a.val.type = .bytes
  · rw [if_pos hbytes]
    exact ⟨fun h => (by cases h), fun h => absurd hbytes h.1⟩
  · simp only [if_neg hbytes, sosPackSnapRenewPubData, sosPackSnapIntoValQueue, bind_eq_ok,
      ofOption_eq_ok]
    constructor
    · rintro ⟨_, ⟨data, hdata, hplaced⟩, _, ⟨data', hdata', v, hv, hrenewed⟩, cached, hcached, hqueue⟩
      cases hplaced
      cases hrenewed
      cases hqueue
      cases hdata.symm.trans hdata'
      exact ⟨hbytes, data, v, hdata, hv, hcached, rfl⟩
    · rintro ⟨-, data, v, hdata, hv, hcached, rfl⟩
      exact ⟨_, ⟨data, hdata, rfl⟩, _, ⟨data, hdata, v, hv, rfl⟩, _, hcached, rfl⟩

/-- A client's `SOS_pack_related` has no cache to tell. -/
theorem sosPackRelated_client {pub pub' : SosPub} {queue queue' : SosPipe SosValSnap}
    {a : PackArgs} :
    sosPackRelated .client pub (some queue) a = .ok (pub', some queue') ↔
      a.val.type ≠ .bytes ∧ ∃ data v,
        (pub.withElem a.guid a.name a.val.type).data[pub.elemPos a.name]? = some data ∧
        renewVal data.type a.val = some v ∧
        pub' = (pub.withElem a.guid a.name a.val.type).setElem (pub.elemPos a.name)
          (data.renew v a.now) ∧
        queue' = queue.push (a.snap pub (pub.elemPos a.name) data) := by
  rw [sosPackRelated_eq_ok]
  simp only [packIntoCache, Except.ok.injEq, Option.map_some, Option.some.injEq, eq_comm]

end SosFlow
