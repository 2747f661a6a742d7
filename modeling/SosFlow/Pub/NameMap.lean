import SosFlow.Pub.Arrays
import SosFlow.Lib.Trace
import Mathlib.Data.List.Nodup

/-!
# A client's pub is a map

A pub maps names to elements, and the map lies in four places: the array of
elements, its count, its capacity, and the table of names. `SOS_pack` keeps
them in step. The n-th element is that of the n-th name that was packed, for
good, and the array grows by 1024 elements when the next one has no room.

What is packed under a name has one type throughout, a number or a string.
What `SOS_uid_next` draws is fresh.
-/

namespace SosFlow

open Trace

/-! ## The names that were packed -/

/-- **The calls that packed a new name**, in order. -/
def firstCalls (calls : List ValueCall) : List ValueCall :=
  calls.foldl (fun firsts v => if v.name ∈ firsts.map (·.name) then firsts else firsts ++ [v]) []

/-- **The distinct names**, in the order in which they first appear. -/
def firstNames (calls : List ValueCall) : List CString := (calls.map (·.name)).eraseDups

/-- What a search of the names returns: a position, or −1. -/
def positionIn (names : List CString) (name : CString) : ℤ :=
  (names.idxOf? name).elim (-1) fun pos => (pos : ℤ)

theorem firstCalls_concat (calls : List ValueCall) (v : ValueCall) :
    firstCalls (calls ++ [v]) =
      if v.name ∈ (firstCalls calls).map (·.name) then firstCalls calls
      else firstCalls calls ++ [v] := by
  rw [firstCalls, List.foldl_append]
  rfl

theorem map_name_firstCalls (calls : List ValueCall) :
    (firstCalls calls).map (·.name) = firstNames calls := by
  induction calls using List.reverseRecOn with
  | nil => rfl
  | append_singleton calls v ih =>
      rw [firstNames, List.map_append, List.eraseDups_append, firstCalls_concat, ih]
      show _ = firstNames calls ++ _
      have hmem : v.name ∈ firstNames calls ↔ v.name ∈ calls.map (·.name) := List.mem_eraseDups
      by_cases hname : v.name ∈ calls.map (·.name)
      · have hnone : (List.map (·.name) [v]).removeAll (calls.map (·.name)) = [] := by
          simpa [List.removeAll] using hname
        rw [if_pos (hmem.mpr hname), ih, hnone]
        exact (List.append_nil _).symm
      · have hone : (List.map (·.name) [v]).removeAll (calls.map (·.name)) = [v.name] := by
          simpa [List.removeAll] using hname
        rw [if_neg (fun hin => hname (hmem.mp hin)), hone, List.map_append, ih]
        rfl

/-- More calls put new names behind those that are known. -/
theorem firstCalls_append (calls more : List ValueCall) :
    firstCalls calls <+: firstCalls (calls ++ more) := by
  induction more using List.reverseRecOn with
  | nil => rw [List.append_nil]
  | append_singleton more v ih =>
      rw [← List.append_assoc, firstCalls_concat]
      split
      case isTrue => exact ih
      case isFalse => exact ih.trans (List.prefix_append _ _)

/-! ## What a run of calls keeps -/

/-- **Calls whose names fit**, and pack each name with one type, a number or a
string. -/
def NamesFit (typeOf : CString → ValType) (calls : List ValueCall) : Prop :=
  ∀ v ∈ calls, v.name.length < sosDefaultStringLen ∧ v.val.type = typeOf v.name ∧
    v.val.type ≠ .bytes

/-- **The elements are those of the first calls**, the table finds them, and each
has the type of its name. -/
structure MapsNames (typeOf : CString → ValType) (calls : List ValueCall) (pub : SosPub) :
    Prop where
  names : pub.data.map (·.name) = firstNames calls
  guids : pub.data.map (·.guid) = (firstCalls calls).map (·.guid)
  search : ∀ name, sosPubSearch pub name = (firstNames calls).idxOf? name
  types : ∀ data ∈ pub.data, data.type = typeOf data.name

variable {typeOf : CString → ValType} {calls : List ValueCall} {c c' : ClientPub} {v : ValueCall}

/-- A value that packs is taken by an element of its type. -/
theorem exists_renewVal {val : SosVal} (h : val.type ≠ .bytes) :
    ∃ r, renewVal val.type val = some r := by
  unfold renewVal
  rw [SosVal.readAs_type]
  cases val with
  | bytes b => exact absurd rfl h
  | _ => exact ⟨_, rfl⟩

/-- The names that are known do not change when one more is. -/
theorem idxOf?_concat {names : List CString} {name : CString} (hnew : name ∉ names)
    (other : CString) : (names ++ [name]).idxOf? other =
      if other = name then some names.length else names.idxOf? other := by
  unfold List.idxOf?
  rw [List.findIdx?_append, List.findIdx?_singleton]
  by_cases hname : other = name
  · subst hname
    have hnone : names.findIdx? (· == other) = none := List.idxOf?_eq_none_iff.mpr hnew
    rw [hnone, if_pos rfl, if_pos (beq_self_eq_true _), Option.none_or, Option.map_some,
      Nat.zero_add]
  · have hne : (name == other) = false := beq_false_of_ne fun heq => hname heq.symm
    rw [hne, if_neg hname, if_neg Bool.false_ne_true, Option.map_none, Option.or_none]

/-- An element that is renewed keeps what the renewal does not touch. -/
theorem map_setElem {β : Type} (f : SosData → β) {pub : SosPub} {pos : ℕ} {data : SosData}
    (hdata : pub.data[pos]? = some data) (data' : SosData) (hf : f data' = f data) :
    (pub.setElem pos data').data.map f = pub.data.map f := by
  obtain ⟨hlt, heq⟩ := List.getElem?_eq_some_iff.mp hdata
  have hpos : pos < (pub.data.map f).length := by rwa [List.length_map]
  show (pub.data.set pos data').map f = _
  rw [List.map_set, hf, ← heq, ← List.getElem_map f (h := hpos), List.set_getElem_self]

/-- **A pack of a name that is known.** -/
theorem MapsNames.known (h : MapsNames typeOf calls c.pub) {pos : ℕ} {data : SosData}
    {r : SosVal × CInt} (hsearch : sosPubSearch c.pub v.name = some pos)
    (hdata : c.pub.data[pos]? = some data) :
    MapsNames typeOf (calls ++ [v]) (c.pub.setElem pos (data.renew r v.now)) := by
  rw [h.search] at hsearch
  have hmem : v.name ∈ firstNames calls := by
    rw [← List.isSome_idxOf?, hsearch]
    rfl
  have hfirsts : firstCalls (calls ++ [v]) = firstCalls calls := by
    rw [firstCalls_concat, map_name_firstCalls, if_pos hmem]
  have hnames : firstNames (calls ++ [v]) = firstNames calls := by
    rw [← map_name_firstCalls, hfirsts, map_name_firstCalls]
  refine ⟨?_, ?_, ?_, ?_⟩
  · rw [map_setElem (·.name) hdata (data.renew r v.now) rfl, hnames]
    exact h.names
  · rw [map_setElem (·.guid) hdata (data.renew r v.now) rfl, hfirsts]
    exact h.guids
  · intro name
    rw [hnames]
    exact h.search name
  · intro data' hdata'
    rcases List.mem_or_eq_of_mem_set hdata' with hold | rfl
    · exact h.types data' hold
    · exact h.types data (List.mem_of_getElem? hdata)

/-- **A pack of a name that is new.** -/
theorem MapsNames.new (h : MapsNames typeOf calls c.pub) {r : SosVal × CInt}
    (hsearch : sosPubSearch c.pub v.name = none) (hlen : v.name.length < sosDefaultStringLen)
    (htype : v.val.type = typeOf v.name) :
    MapsNames typeOf (calls ++ [v]) ((c.pub.addElem v.guid v.name v.val.type).setElem
      c.pub.elemCount ((c.pub.newData v.guid v.name v.val.type).renew r v.now)) := by
  have hnew : v.name ∉ firstNames calls := by
    rw [h.search] at hsearch
    exact List.idxOf?_eq_none_iff.mp hsearch
  have hfirsts : firstCalls (calls ++ [v]) = firstCalls calls ++ [v] := by
    rw [firstCalls_concat, map_name_firstCalls, if_neg hnew]
  have hnames : firstNames (calls ++ [v]) = firstNames calls ++ [v.name] := by
    rw [← map_name_firstCalls, hfirsts, List.map_append, map_name_firstCalls]
    rfl
  -- the name fits its array, so that the element has all of it
  have hname : v.name.take sosDefaultStringLen = v.name := CString.take_of_length_le hlen.le
  have hdata := SosPub.data_setElem_addElem c.pub v.guid v.name v.val.type
    ((c.pub.newData v.guid v.name v.val.type).renew r v.now)
  refine ⟨?_, ?_, ?_, ?_⟩
  · rw [hdata, List.map_append, h.names, hnames]
    exact congrArg (fun name => firstNames calls ++ [name]) hname
  · rw [hdata, List.map_append, h.guids, hfirsts, List.map_append]
    rfl
  · intro name
    have hcount : c.pub.elemCount = (firstNames calls).length := by
      rw [← h.names, List.length_map]
      rfl
    show sosPubSearch (c.pub.addElem v.guid v.name v.val.type) name = _
    rw [SosPub.sosPubSearch_addElem c.pub v.guid v.val.type hsearch, hnames, idxOf?_concat hnew,
      h.search, hcount]
  · intro data hmem
    rw [hdata] at hmem
    rcases List.mem_append.mp hmem with hold | hone
    · exact h.types data hold
    · obtain rfl := List.mem_singleton.mp hone
      show v.val.type = typeOf (v.name.take sosDefaultStringLen)
      rw [hname, htype]

/-- **A call packs its value**, and the names stay mapped. -/
theorem MapsNames.pack (h : MapsNames typeOf calls c.pub)
    (hlen : v.name.length < sosDefaultStringLen) (htype : v.val.type = typeOf v.name)
    (hbytes : v.val.type ≠ .bytes) :
    ∃ c', c.pack v.toPackArgs = some c' ∧ MapsNames typeOf (calls ++ [v]) c'.pub := by
  obtain ⟨r, hr⟩ := exists_renewVal hbytes
  cases hsearch : sosPubSearch c.pub v.name with
  | none =>
      have hplaced : c.pub.withElem v.guid v.name v.val.type =
          c.pub.addElem v.guid v.name v.val.type := by rw [SosPub.withElem, hsearch]
      have hpos : c.pub.elemPos v.name = c.pub.elemCount := by
        rw [SosPub.elemPos, hsearch, Option.getD_none]
      have hdata : (c.pub.addElem v.guid v.name v.val.type).data[c.pub.elemCount]? =
          some (c.pub.newData v.guid v.name v.val.type) := by
        rw [SosPub.data_addElem]
        exact List.getElem?_concat_length
      refine ⟨⟨_, _⟩, ClientPub.pack_eq_some.mpr ⟨hbytes, c.pub.newData v.guid v.name v.val.type, r,
        ?_, hr, rfl, rfl⟩, ?_⟩
      · rw [hplaced, hpos]
        exact hdata
      · rw [hplaced, hpos]
        exact h.new hsearch hlen htype
  | some pos =>
      have hplaced : c.pub.withElem v.guid v.name v.val.type = c.pub := by
        rw [SosPub.withElem, hsearch]
      have hpos : c.pub.elemPos v.name = pos := by
        rw [SosPub.elemPos, hsearch, Option.getD_some]
      obtain ⟨hlt, hname, -⟩ := List.idxOf?_eq_some_iff.mp ((h.search v.name).symm.trans hsearch)
      have hcount : c.pub.data.length = (firstNames calls).length := by
        rw [← h.names, List.length_map]
      obtain ⟨data, hdata⟩ : ∃ data, c.pub.data[pos]? = some data :=
        ⟨_, List.getElem?_eq_getElem (hcount ▸ hlt)⟩
      -- the element was made for the name, by a value of the same type
      have hfound : data.name = v.name := by
        have hmap : (c.pub.data.map (·.name))[pos]? = some data.name := by
          rw [List.getElem?_map, hdata, Option.map_some]
        rw [h.names, List.getElem?_eq_getElem hlt, hname] at hmap
        exact (Option.some.inj hmap).symm
      have hsame : data.type = v.val.type := by
        rw [h.types data (List.mem_of_getElem? hdata), hfound, htype]
      refine ⟨⟨_, _⟩, ClientPub.pack_eq_some.mpr ⟨hbytes, data, r, ?_, hsame ▸ hr, rfl, rfl⟩, ?_⟩
      · rw [hplaced, hpos]
        exact hdata
      · rw [hplaced, hpos]
        exact h.known hsearch hdata

/-! ## The runs -/

/-- A run of calls on the arrays. -/
def packAll (m : PubArrays) (calls : List ValueCall) : Option PubArrays :=
  run PubArrays.packStep m (calls.map .value)

/-- **A run of calls packs all its values**, and the names stay mapped. -/
theorem exists_packAll {m : PubArrays} (hrep : m.Represents c) (h : MapsNames typeOf calls c.pub)
    {more : List ValueCall} (hmore : NamesFit typeOf more) :
    ∃ m' c', packAll m more = some m' ∧ m'.Represents c' ∧
      MapsNames typeOf (calls ++ more) c'.pub := by
  induction more generalizing m c calls with
  | nil => exact ⟨m, c, rfl, hrep, (List.append_nil calls).symm ▸ h⟩
  | cons v more ih =>
      obtain ⟨hlen, htype, hbytes⟩ := hmore v List.mem_cons_self
      obtain ⟨c₁, hpack, h₁⟩ := h.pack hlen htype hbytes
      obtain ⟨m₁, hstep, hrep₁⟩ := PubArrays.pack_represents hrep hpack
      obtain ⟨m', c', hrun, hrep', h'⟩ := ih hrep₁ h₁ fun w hw => hmore w (List.mem_cons_of_mem v hw)
      refine ⟨m', c', ?_, hrep', ?_⟩
      · rw [packAll, List.map_cons, run_cons, PubArrays.packStep, hstep]
        exact hrun
      · rwa [List.append_assoc, List.singleton_append] at h'

/-- **The pub is a map** of the names that were packed. -/
structure NameMap (calls : List ValueCall) (m : PubArrays) : Prop where
  count : m.elemCount = (firstNames calls).length
  room : m.elemCount ≤ m.elemMax
  search : ∀ name, m.pubSearch name = positionIn (firstNames calls) name
  elem : ∀ (pos : ℕ) (v : ValueCall), (firstCalls calls)[pos]? = some v →
    ∃ data, m.cell pos = some data ∧ data.name = v.name ∧ data.guid = v.guid
  guids : ∀ (i j : ℕ) (a b : SosData), i < j → j < m.elemCount → m.cell i = some a →
    m.cell j = some b → a.guid ≠ b.guid
  grown : ∀ pos, pos < m.elemMax → m.expandData.cell pos = m.cell pos

/-- The element of the n-th name. -/
theorem MapsNames.elem {m : PubArrays} (hrep : m.Represents c) (h : MapsNames typeOf calls c.pub)
    {pos : ℕ} {v : ValueCall} (hv : (firstCalls calls)[pos]? = some v) :
    ∃ data, m.cell pos = some data ∧ data.name = v.name ∧ data.guid = v.guid := by
  have hname : (c.pub.data.map (·.name))[pos]? = some v.name := by
    rw [h.names, ← map_name_firstCalls, List.getElem?_map, hv, Option.map_some]
  have hguid : (c.pub.data.map (·.guid))[pos]? = some v.guid := by
    rw [h.guids, List.getElem?_map, hv, Option.map_some]
  rw [List.getElem?_map] at hname hguid
  obtain ⟨data, hdata, hsame⟩ := Option.map_eq_some_iff.mp hname
  rw [hdata, Option.map_some] at hguid
  exact ⟨data, hrep.cell hdata, hsame, Option.some.inj hguid⟩

/-- **What the invariant says of the arrays**, when the guids that were drawn are
fresh. -/
theorem MapsNames.nameMap {m : PubArrays} (hrep : m.Represents c)
    (h : MapsNames typeOf calls c.pub) (hfresh : ((firstCalls calls).map (·.guid)).Nodup) :
    NameMap calls m := by
  have hcount : m.elemCount = (firstNames calls).length := by
    rw [hrep.count, ← h.names, List.length_map]
    rfl
  have hlen : (firstCalls calls).length = (firstNames calls).length := by
    rw [← map_name_firstCalls, List.length_map]
  refine ⟨hcount, ?_, ?_, fun pos v => h.elem hrep, ?_, ?_⟩
  · rw [hrep.max, hrep.data, hrep.count, List.length_map, List.length_append]
    exact Nat.le_add_right _ _
  · intro name
    rw [hrep.pubSearch, h.search]
    rfl
  · intro i j a b hij hj ha hb
    rw [hcount, ← hlen] at hj
    obtain ⟨a', ha', -, hguida⟩ := h.elem hrep (List.getElem?_eq_getElem (hij.trans hj))
    obtain ⟨b', hb', -, hguidb⟩ := h.elem hrep (List.getElem?_eq_getElem hj)
    obtain rfl := Option.some.inj (ha.symm.trans ha')
    obtain rfl := Option.some.inj (hb.symm.trans hb')
    rw [hguida, hguidb]
    intro heq
    have hi : i < ((firstCalls calls).map (·.guid)).length := by
      rw [List.length_map]
      exact hij.trans hj
    have hsame : i = j := by
      refine (List.getElem?_inj hi hfresh).mp ?_
      rw [List.getElem?_map, List.getElem?_map, List.getElem?_eq_getElem (hij.trans hj),
        List.getElem?_eq_getElem hj, Option.map_some, Option.map_some, heq]
    omega
  · intro pos hpos
    rw [PubArrays.cell, PubArrays.data_expandData hrep.max.symm,
      List.getElem?_append_left (hrep.max ▸ hpos)]
    rfl

/-- **A client's pub is a map**, behind every run of calls that pack each name with
one type: it maps the names packed so far to their positions, and what it says
of a name stays as the calls go on. -/
theorem client_pub_is_map (guid : SosGuid) (newSize : ℕ) (typeOf : CString → ValType)
    (calls more : List ValueCall) (hcalls : NamesFit typeOf (calls ++ more))
    (hfresh : ((firstCalls (calls ++ more)).map (·.guid)).Nodup) :
    ∃ m m', packAll (.init guid newSize) calls = some m ∧ packAll m more = some m' ∧
      NameMap calls m ∧ NameMap (calls ++ more) m' ∧
      ∀ pos, pos < m.elemCount → ∃ data data', m.cell pos = some data ∧ m'.cell pos = some data' ∧
        data'.name = data.name ∧ data'.guid = data.guid := by
  have hstart : MapsNames typeOf [] (sosPubInitSized plainConfig guid .empty 0 newSize) :=
    ⟨rfl, rfl, fun _ => rfl, fun _ h => (by cases h)⟩
  obtain ⟨m, c, hrun, hrep, h⟩ := exists_packAll
    (PubArrays.represents_init plainConfig guid .empty 0 newSize) hstart
    fun v hv => hcalls v (List.mem_append_left more hv)
  obtain ⟨m', c', hrun', hrep', h'⟩ := exists_packAll hrep h
    fun v hv => hcalls v (List.mem_append_right calls hv)
  have hkept := firstCalls_append calls more
  have hmap := h.nameMap hrep (hfresh.sublist (hkept.map _).sublist)
  refine ⟨m, m', hrun, hrun', hmap, h'.nameMap hrep' hfresh, ?_⟩
  intro pos hpos
  rw [hmap.count, ← map_name_firstCalls, List.length_map] at hpos
  have hfirst := List.getElem?_eq_getElem hpos
  obtain ⟨data, hdata, hname, hguid⟩ := h.elem hrep hfirst
  have hstill : (firstCalls (calls ++ more))[pos]? = some (firstCalls calls)[pos] := by
    exact List.prefix_iff_getElem?.mp hkept pos hpos
  obtain ⟨data', hdata', hname', hguid'⟩ := h'.elem hrep' hstill
  exact ⟨data, data', hdata, hdata', hname'.trans hname.symm, hguid'.trans hguid.symm⟩

/-- A name that is packed as an integer, and one that is packed as a string. -/
def xCall : ValueCall := ⟨⟨nameX, .int 5, 0, 11, 0⟩, 0⟩

/-- The string, under the name `"y"`. -/
def yCall : ValueCall := ⟨⟨⟨[121], by simp⟩, .string nameX, 0, 12, 0⟩, 4096⟩

theorem client_pub_is_map_two : ∃ m m', packAll (.init 5 0) [xCall, yCall] = some m ∧
    packAll m [xCall] = some m' ∧ NameMap [xCall, yCall] m ∧ NameMap [xCall, yCall, xCall] m' ∧
    ∀ pos, pos < m.elemCount → ∃ data data', m.cell pos = some data ∧ m'.cell pos = some data' ∧
      data'.name = data.name ∧ data'.guid = data.guid := by
  refine client_pub_is_map 5 0 (fun name => if name = nameX then .int else .string)
    [xCall, yCall] [xCall] ?_ (by decide)
  intro v hv
  have hone : v = xCall ∨ v = yCall ∨ v = xCall := by simpa using hv
  rcases hone with rfl | rfl | rfl <;> decide

end SosFlow
