import SosFlow.Table.HashTable

/-!
# A hash table is a dictionary

What a table is for: it keeps the first value that was put under each key,
until the key is removed. A `Dict` lists the keys with their values in the
order in which they came, and has no slots, hashes or memory.

Every call of the table does what it does to the dictionary, and reports the
same (`Holds.call`), so a run of calls does (`Holds.calls`); no run is at
fault. The objects in memory are those of the dictionary, and `free` leaves
none.
-/

namespace SosFlow

open Linked

/-- **The dictionary**: the keys, each with the first value that was put there. -/
abbrev Dict := List (CString × BitVec 64)

namespace Dict

/-- The keys. -/
def keys (d : Dict) : List CString := d.map Prod.fst

/-- The value of a key, or `NULL`. -/
def get (d : Dict) (key : CString) : BitVec 64 := (d.lookup key).getD 0

/-- A key that is new is put at the end, if there is memory for it. -/
def put (d : Dict) (key : CString) (data : BitVec 64) (mallocs : Bool) : Bool × Dict :=
  if key ∈ d.keys then (true, d)
  else if mallocs then (true, d ++ [(key, data)])
  else (false, d)

/-- A key is removed. -/
def remove (d : Dict) (key : CString) : Bool × Dict :=
  (decide (key ∈ d.keys), d.filter fun entry => entry.1 ≠ key)

end Dict

/-! ## The calls -/

/-- **A call of the table.** -/
inductive QhCall where
  | put (fullpath : Option CString) (data : BitVec 64) (mallocs : Bool)
  | put2 (path : Option CString) (name : CString) (data : BitVec 64) (mallocs : Bool)
  | get (fullpath : Option CString)
  | get2 (path : Option CString) (name : CString)
  | remove (fullpath : CString)
  | size
  | clear

/-- **What it returns.** -/
inductive QhResult where
  | bool (ok : Bool)
  | data (p : BitVec 64)
  | int (num : ℤ)
  | void
deriving DecidableEq

/-- The key of a call. -/
def QhCall.key : QhCall → Option CString
  | put fullpath _ _ => fullpath
  | put2 path name _ _ => some (genkey path name)
  | get fullpath => fullpath
  | get2 path name => some (genkey path name)
  | remove fullpath => some fullpath
  | size => none
  | clear => none

/-- **A call, to the dictionary.** -/
def Dict.call (d : Dict) : QhCall → QhResult × Dict
  | .put none _ _ => (.bool false, d)
  | .put (some key) data mallocs => ((.bool (d.put key data mallocs).1), (d.put key data mallocs).2)
  | .put2 path name data mallocs =>
    (.bool (d.put (genkey path name) data mallocs).1, (d.put (genkey path name) data mallocs).2)
  | .get none => (.data 0, d)
  | .get (some key) => (.data (d.get key), d)
  | .get2 path name => (.data (d.get (genkey path name)), d)
  | .remove key => (.bool (d.remove key).1, (d.remove key).2)
  | .size => (.int d.length, d)
  | .clear => (.void, [])

/-- The calls one after the other, with what they return. -/
def Dict.calls : Dict → List QhCall → List QhResult × Dict
  | d, [] => ([], d)
  | d, call :: rest =>
    let (result, d) := d.call call
    let (results, d) := calls d rest
    (result :: results, d)

namespace QHashTbl

variable {range : ℕ} [NeZero range]

/-- **A call, to the table.** -/
def call (t : QHashTbl range) : QhCall → Option (QhResult × QHashTbl range)
  | .put fullpath data mallocs => (t.put fullpath data mallocs).map fun r => (.bool r.1, r.2)
  | .put2 path name data mallocs => (t.put2 path name data mallocs).map fun r => (.bool r.1, r.2)
  | .get fullpath => (t.get fullpath).map fun data => (.data data, t)
  | .get2 path name => (t.get2 path name).map fun data => (.data data, t)
  | .remove key => (t.remove_ key).map fun r => (.bool r.1, r.2)
  | .size => some (.int t.size, t)
  | .clear => t.clear.map fun t => (.void, t)

/-- The calls one after the other, with what they return. -/
def calls : QHashTbl range → List QhCall → Option (List QhResult × QHashTbl range)
  | t, [] => some ([], t)
  | t, call :: rest => do
    let (result, t) ← t.call call
    let (results, t) ← calls t rest
    some (result :: results, t)

/-! ## The objects -/

/-- The slot of an object. -/
def objSlot (range : ℕ) [NeZero range] (obj : QhNobj) : Fin range := slotOf range obj.hash

/-- The objects, as entries of the dictionary. -/
def entries (objs : List (ℕ × QhNobj)) : Dict := objs.map fun c => (c.2.key, c.2.value)

/-- **The table holds these objects**, in the order in which they came: no two have one
key, and `num` is how many they are. -/
structure Holds (t : QHashTbl range) (objs : List (ℕ × QhNobj)) : Prop where
  chained : Chained t.mem t.slots (objSlot range) objs
  hashed : ∀ c ∈ objs, hashOf c.2.key = some c.2.hash
  keys : (entries objs).keys.Nodup
  num : t.num = objs.length
  below : ∀ c ∈ objs, c.1 < t.fresh

variable {t t' : QHashTbl range} {objs xs ys : List (ℕ × QhNobj)} {c : ℕ × QhNobj}
  {key : CString} {hash : BitVec 32} {data : BitVec 64} {mallocs : Bool}

/-- The new table holds nothing. -/
theorem holds_qhashtbl (range : ℕ) [NeZero range] : (qhashtbl range).Holds [] :=
  ⟨chained_empty _, fun _ h => absurd h List.not_mem_nil, List.nodup_nil, rfl,
    fun _ h => absurd h List.not_mem_nil⟩

theorem mem_keys_entries : key ∈ (entries objs).keys ↔ ∃ c ∈ objs, c.2.key = key := by
  simp [Dict.keys, entries]

/-- The key of an object tells its hash, so the walk goes by the key. -/
theorem Holds.isKey_iff (h : t.Holds objs) (hhash : hashOf key = some hash) (hc : c ∈ objs) :
    isKey hash key c.2 = true ↔ c.2.key = key := by
  simp only [isKey, decide_eq_true_eq]
  refine ⟨fun hboth => hboth.2, fun heq => ⟨?_, heq⟩⟩
  have hown := h.hashed c hc
  rw [heq, hhash] at hown
  exact (Option.some.inj hown).symm

omit [NeZero range] in
/-- Addresses below a bound, each once, are no more than the bound. -/
theorem length_le_of_below {fresh : ℕ} (hnodup : (objs.map Prod.fst).Nodup)
    (hbelow : ∀ c ∈ objs, c.1 < fresh) : objs.length ≤ fresh := by
  have hsub : objs.map Prod.fst ⊆ List.range fresh := fun a ha => by
    obtain ⟨c, hc, rfl⟩ := List.mem_map.mp ha
    exact List.mem_range.mpr (hbelow c hc)
  have hle := (hnodup.subperm hsub).length_le
  rwa [List.length_map, List.length_range] at hle

theorem Holds.length_le (h : t.Holds objs) : objs.length ≤ t.fresh :=
  length_le_of_below h.chained.nodup h.below

/-- **A key that is not there is not found.** -/
theorem Holds.find_none (h : t.Holds objs) (hhash : hashOf key = some hash)
    (hkey : key ∉ (entries objs).keys) : ∃ last, t.find hash key = some (last, none) := by
  refine h.chained.walk_none _ (fun c hc => ?_) h.length_le none
  rw [← Bool.not_eq_true, h.isKey_iff hhash hc]
  exact fun heq => hkey (mem_keys_entries.mpr ⟨c, hc, heq⟩)

/-- The other objects have other keys. -/
theorem Holds.other_keys (h : t.Holds (xs ++ c :: ys)) :
    (∀ d ∈ xs, d.2.key ≠ c.2.key) ∧ ∀ d ∈ ys, d.2.key ≠ c.2.key := by
  have hnodup := h.keys
  rw [Dict.keys, entries, List.map_map, List.map_append, List.map_cons, List.nodup_append,
    List.nodup_cons] at hnodup
  exact ⟨fun d hd => hnodup.2.2 _ (List.mem_map_of_mem hd) _ List.mem_cons_self,
    fun d hd heq => hnodup.2.1.1 (List.mem_map.mpr ⟨d, hd, heq⟩)⟩

/-- **A key that is there is found**, with the object in front of its own in the slot. -/
theorem Holds.find_some (h : t.Holds (xs ++ c :: ys)) :
    t.find c.2.hash c.2.key =
      some (((xs.filter fun d => objSlot range d.2 = objSlot range c.2).map Prod.fst).getLast?,
        some c.1) := by
  have hmem : c ∈ xs ++ c :: ys := List.mem_append_right xs List.mem_cons_self
  refine h.chained.walk_some (p := isKey c.2.hash c.2.key) (fun d hd => ?_) ?_ h.length_le
  · rw [← Bool.not_eq_true, h.isKey_iff (h.hashed c hmem) (List.mem_append_left _ hd)]
    exact h.other_keys.1 d hd
  · exact (h.isKey_iff (h.hashed c hmem) hmem).mpr rfl

/-- A key that is there is that of one object, among the others. -/
theorem exists_split (hkey : key ∈ (entries objs).keys) :
    ∃ xs c ys, objs = xs ++ c :: ys ∧ c.2.key = key := by
  obtain ⟨c, hc, rfl⟩ := mem_keys_entries.mp hkey
  obtain ⟨xs, ys, rfl⟩ := List.append_of_mem hc
  exact ⟨xs, c, ys, rfl, rfl⟩

/-- What is looked up is the value of the object with the key. -/
theorem Holds.get_entries (h : t.Holds (xs ++ c :: ys)) :
    (entries (xs ++ c :: ys)).get c.2.key = c.2.value := by
  have hlookup : (entries (xs ++ c :: ys)).lookup c.2.key = some c.2.value := by
    refine List.lookup_eq_some_iff.mpr ⟨entries xs, entries ys, by simp [entries], ?_⟩
    intro entry hentry
    obtain ⟨d, hd, rfl⟩ := List.mem_map.mp hentry
    exact bne_iff_ne.mpr (h.other_keys.1 d hd).symm
  rw [Dict.get, hlookup, Option.getD_some]

/-! ## The calls do what they do to the dictionary -/

/-- **What `qhput` does.** -/
theorem Holds.qhput (h : t.Holds objs) (hfits : key.length ≤ intMax)
    (hcount : objs.length < intMax) (data : BitVec 64) (mallocs : Bool) :
    ∃ t' objs', t.qhput key data mallocs = some (((entries objs).put key data mallocs).1, t') ∧
      t'.Holds objs' ∧ entries objs' = ((entries objs).put key data mallocs).2 := by
  have hhash : hashOf key = some (qhashmurmur3_32 key.bytes) := if_pos hfits
  by_cases hkey : key ∈ (entries objs).keys
  · obtain ⟨xs, c, ys, rfl, rfl⟩ := exists_split hkey
    have hown := h.hashed c (List.mem_append_right xs List.mem_cons_self)
    refine ⟨t, _, ?_, h, by rw [Dict.put, if_pos hkey]⟩
    rw [QHashTbl.qhput, hown, Dict.put, if_pos hkey]
    simp only [Option.bind_eq_bind, Option.bind_some, h.find_some]
  · obtain ⟨last, hfind⟩ := h.find_none hhash hkey
    cases mallocs with
    | false =>
        refine ⟨t, objs, ?_, h, by rw [Dict.put, if_neg hkey]; rfl⟩
        rw [QHashTbl.qhput, hhash, Dict.put, if_neg hkey]
        simp only [Option.bind_eq_bind, Option.bind_some, hfind, if_true]
        rfl
    | true =>
        have hfree : t.mem t.fresh = none := by
          by_contra hne
          obtain ⟨c, hc, heq⟩ := List.mem_map.mp (h.chained.covers _ hne)
          exact absurd (h.below c hc) (by omega)
        have hnum : t.num ≠ intMax := by
          rw [h.num]
          exact_mod_cast hcount.ne
        obtain ⟨mem, slot, happend, hchained⟩ :=
          h.chained.append ⟨qhashmurmur3_32 key.bytes, key, data⟩ hfree
        refine ⟨⟨t.num + 1, _, mem, t.fresh + 1⟩,
          objs ++ [(t.fresh, ⟨qhashmurmur3_32 key.bytes, key, data⟩)], ?_,
          ⟨hchained, ?_, ?_, ?_, ?_⟩, ?_⟩
        · rw [QHashTbl.qhput, hhash, Dict.put, if_neg hkey]
          simp only [Option.bind_eq_bind, Option.bind_some, hfind, Bool.true_eq_false, if_false,
            if_neg hnum]
          exact congrArg (fun r => Option.bind r _) happend
        · intro c hc
          rcases List.mem_append.mp hc with hc | hc
          · exact h.hashed c hc
          · rw [List.mem_singleton.mp hc]
            exact hhash
        · show ((entries _).map Prod.fst).Nodup
          rw [entries, List.map_append, List.map_append, List.nodup_append]
          refine ⟨h.keys, List.nodup_singleton key, fun k hk k' hk' => ?_⟩
          rw [List.mem_singleton.mp hk']
          rintro rfl
          exact hkey hk
        · show t.num + 1 = _
          rw [h.num, List.length_append, List.length_singleton]
          push_cast
          rfl
        · intro c hc
          show c.1 < t.fresh + 1
          rcases List.mem_append.mp hc with hc | hc
          · exact Nat.lt_succ_of_lt (h.below c hc)
          · rw [List.mem_singleton.mp hc]
            exact Nat.lt_succ_self _
        · rw [Dict.put, if_neg hkey, if_pos rfl, entries, List.map_append]
          rfl

/-- **What `qhget` does.** -/
theorem Holds.qhget (h : t.Holds objs) (hfits : key.length ≤ intMax) :
    t.qhget key = some ((entries objs).get key) := by
  have hhash : hashOf key = some (qhashmurmur3_32 key.bytes) := if_pos hfits
  by_cases hkey : key ∈ (entries objs).keys
  · obtain ⟨xs, c, ys, rfl, rfl⟩ := exists_split hkey
    have hmem : c ∈ xs ++ c :: ys := List.mem_append_right xs List.mem_cons_self
    obtain ⟨next, hm⟩ := h.chained.allocated hmem
    rw [QHashTbl.qhget, h.hashed c hmem, h.get_entries]
    simp only [Option.bind_eq_bind, Option.bind_some, h.find_some, hm, Option.map_some]
  · obtain ⟨last, hfind⟩ := h.find_none hhash hkey
    rw [QHashTbl.qhget, hhash]
    simp only [Option.bind_eq_bind, Option.bind_some, hfind]
    have hlookup : (entries objs).lookup key = none := List.lookup_eq_none_iff.mpr
      fun entry hentry => bne_iff_ne.mpr fun heq => hkey (heq ▸ List.mem_map_of_mem hentry)
    rw [Dict.get, hlookup]
    rfl

/-- **What `remove` does.** -/
theorem Holds.remove_ (h : t.Holds objs) (hfits : key.length ≤ intMax) :
    ∃ t' objs', t.remove_ key = some (((entries objs).remove key).1, t') ∧ t'.Holds objs' ∧
      entries objs' = ((entries objs).remove key).2 := by
  have hhash : hashOf key = some (qhashmurmur3_32 key.bytes) := if_pos hfits
  by_cases hkey : key ∈ (entries objs).keys
  · obtain ⟨xs, c, ys, rfl, rfl⟩ := exists_split hkey
    have hmem : c ∈ xs ++ c :: ys := List.mem_append_right xs List.mem_cons_self
    have hsub : (xs ++ ys).Sublist (xs ++ c :: ys) := (List.sublist_cons_self c ys).append_left xs
    obtain ⟨mem, slot, hremove, hchained⟩ := h.chained.remove
    refine ⟨⟨t.num - 1, _, mem, t.fresh⟩, xs ++ ys, ?_, ⟨hchained, ?_, ?_, ?_, ?_⟩, ?_⟩
    · rw [QHashTbl.remove_, h.hashed c hmem, Dict.remove, decide_eq_true hkey]
      simp only [Option.bind_eq_bind, Option.bind_some, h.find_some]
      exact congrArg (fun r => Option.bind r _) hremove
    · exact fun d hd => h.hashed d (hsub.subset hd)
    · exact h.keys.sublist ((hsub.map _).map _)
    · show t.num - 1 = _
      rw [h.num, List.length_append, List.length_append, List.length_cons]
      push_cast
      omega
    · exact fun d hd => h.below d (hsub.subset hd)
    · have hfilter (zs : List (ℕ × QhNobj)) (hzs : ∀ d ∈ zs, d.2.key ≠ c.2.key) :
          (entries zs).filter (fun entry => entry.1 ≠ c.2.key) = entries zs := by
        refine List.filter_eq_self.mpr fun entry hentry => ?_
        obtain ⟨d, hd, rfl⟩ := List.mem_map.mp hentry
        exact decide_eq_true (hzs d hd)
      rw [Dict.remove, entries, entries, List.map_append, List.map_append, List.map_cons,
        List.filter_append, List.filter_cons_of_neg (by simp)]
      exact (congrArg₂ _ (hfilter xs h.other_keys.1) (hfilter ys h.other_keys.2)).symm
  · obtain ⟨last, hfind⟩ := h.find_none hhash hkey
    refine ⟨t, objs, ?_, h, ?_⟩
    · rw [QHashTbl.remove_, hhash, Dict.remove, decide_eq_false hkey]
      simp only [Option.bind_eq_bind, Option.bind_some, hfind]
    · have hne : ∀ entry ∈ entries objs, entry.1 ≠ key := fun entry hentry heq =>
        hkey (heq ▸ List.mem_map_of_mem hentry)
      exact (List.filter_eq_self.mpr fun entry hentry => decide_eq_true (hne entry hentry)).symm

/-- A slot is cleared: the objects of the others are left. -/
theorem Holds.clearSlot (h : t.Holds objs) (idx : Fin range) :
    ∃ t', t.clearSlot idx = some t' ∧
      t'.Holds (objs.filter fun c => !decide (objSlot range c.2 = idx)) := by
  obtain ⟨mem, hdrain, hchained⟩ := h.chained.drain idx h.length_le
  have hsub : (objs.filter fun c => !decide (objSlot range c.2 = idx)).Sublist objs :=
    List.filter_sublist
  refine ⟨⟨t.num - (objs.filter fun c => objSlot range c.2 = idx).length,
    Function.update t.slots idx .empty, mem, t.fresh⟩, ?_, ⟨hchained, ?_, ?_, ?_, ?_⟩⟩
  · rw [QHashTbl.clearSlot, hdrain, Option.map_some]
  · exact fun d hd => h.hashed d (hsub.subset hd)
  · exact h.keys.sublist ((hsub.map _).map _)
  · have hlength := List.length_eq_length_filter_add (l := objs)
      fun c : ℕ × QhNobj => decide (objSlot range c.2 = idx)
    show t.num - _ = _
    rw [h.num]
    omega
  · exact fun d hd => h.below d (hsub.subset hd)

/-- **The slots are cleared** until nothing is counted, and nothing is left. -/
theorem Holds.clearSlots {idxs : List (Fin range)} (h : t.Holds objs)
    (hall : ∀ c ∈ objs, objSlot range c.2 ∈ idxs) :
    ∃ t', QHashTbl.clearSlots idxs t = some t' ∧ t'.Holds [] := by
  induction idxs generalizing t objs with
  | nil =>
      obtain rfl := List.eq_nil_iff_forall_not_mem.mpr fun c hc => absurd (hall c hc) List.not_mem_nil
      exact ⟨t, rfl, h⟩
  | cons idx idxs ih =>
      rw [QHashTbl.clearSlots]
      split
      case isTrue =>
        obtain ⟨t', hclear, h'⟩ := h.clearSlot idx
        obtain ⟨t'', hrest, hnone⟩ := ih h' fun c hc => by
          obtain ⟨hc, hne⟩ := List.mem_filter.mp hc
          exact (List.mem_cons.mp (hall c hc)).resolve_left
            (of_decide_eq_false (Bool.not_eq_true' _ ▸ hne))
        exact ⟨t'', by rw [hclear, Option.bind_some, hrest], hnone⟩
      case isFalse hnum =>
        have hlength : objs.length = 0 := by
          have hcount := h.num
          omega
        obtain rfl := List.length_eq_zero_iff.mp hlength
        exact ⟨t, rfl, h⟩

theorem Holds.clear (h : t.Holds objs) : ∃ t', t.clear = some t' ∧ t'.Holds [] :=
  h.clearSlots fun _ _ => List.mem_finRange _

/-- **A call does what it does to the dictionary**, and returns the same. -/
theorem Holds.call (h : t.Holds objs) {call : QhCall}
    (hfits : ∀ key ∈ call.key, key.length ≤ intMax) (hcount : objs.length < intMax) :
    ∃ t' objs', t.call call = some (((entries objs).call call).1, t') ∧ t'.Holds objs' ∧
      entries objs' = ((entries objs).call call).2 := by
  cases call with
  | put fullpath data mallocs =>
      cases fullpath with
      | none => exact ⟨t, objs, rfl, h, rfl⟩
      | some key =>
          obtain ⟨t', objs', hput, h', hentries⟩ := h.qhput (hfits key rfl) hcount data mallocs
          refine ⟨t', objs', ?_, h', hentries⟩
          simp only [QHashTbl.call, QHashTbl.put, hput, Option.map_some, Dict.call]
  | put2 path name data mallocs =>
      obtain ⟨t', objs', hput, h', hentries⟩ := h.qhput (hfits _ rfl) hcount data mallocs
      refine ⟨t', objs', ?_, h', hentries⟩
      simp only [QHashTbl.call, QHashTbl.put2, hput, Option.map_some, Dict.call]
  | get fullpath =>
      cases fullpath with
      | none => exact ⟨t, objs, rfl, h, rfl⟩
      | some key =>
          refine ⟨t, objs, ?_, h, rfl⟩
          simp only [QHashTbl.call, QHashTbl.get, h.qhget (hfits key rfl), Option.map_some, Dict.call]
  | get2 path name =>
      refine ⟨t, objs, ?_, h, rfl⟩
      simp only [QHashTbl.call, QHashTbl.get2, h.qhget (hfits _ rfl), Option.map_some, Dict.call]
  | remove key =>
      obtain ⟨t', objs', hremove, h', hentries⟩ := h.remove_ (hfits key rfl)
      refine ⟨t', objs', ?_, h', hentries⟩
      simp only [QHashTbl.call, hremove, Option.map_some, Dict.call]
  | size =>
      refine ⟨t, objs, ?_, h, rfl⟩
      simp only [QHashTbl.call, size, h.num, Dict.call, entries, List.length_map]
  | clear =>
      obtain ⟨t', hclear, h'⟩ := h.clear
      refine ⟨t', [], ?_, h', rfl⟩
      simp only [QHashTbl.call, hclear, Option.map_some, Dict.call]

/-- No call adds more than one key. -/
theorem length_call_le (d : Dict) (call : QhCall) : (d.call call).2.length ≤ d.length + 1 := by
  have hput (key : CString) (data : BitVec 64) (mallocs : Bool) :
      (d.put key data mallocs).2.length ≤ d.length + 1 := by
    rw [Dict.put]
    split
    case isTrue => exact Nat.le_succ _
    case isFalse =>
      split
      · exact (List.length_append).le
      · exact Nat.le_succ _
  cases call with
  | put fullpath data mallocs =>
      cases fullpath with
      | none => exact Nat.le_succ _
      | some key => exact hput key data mallocs
  | put2 path name data mallocs => exact hput _ data mallocs
  | get fullpath => cases fullpath <;> exact Nat.le_succ _
  | get2 path name => exact Nat.le_succ _
  | remove key => exact (List.length_filter_le _ _).trans (Nat.le_succ _)
  | size => exact Nat.le_succ _
  | clear => exact Nat.zero_le _

/-- **The calls do what they do to the dictionary**, and return the same. -/
theorem Holds.calls (h : t.Holds objs) {calls : List QhCall}
    (hfits : ∀ call ∈ calls, ∀ key ∈ call.key, key.length ≤ intMax)
    (hcount : objs.length + calls.length ≤ intMax) :
    ∃ t' objs', t.calls calls = some (((entries objs).calls calls).1, t') ∧ t'.Holds objs' ∧
      entries objs' = ((entries objs).calls calls).2 := by
  induction calls generalizing t objs with
  | nil => exact ⟨t, objs, rfl, h, rfl⟩
  | cons call rest ih =>
      rw [List.length_cons] at hcount
      rw [List.forall_mem_cons] at hfits
      obtain ⟨t₁, objs₁, hcall, h₁, hentries⟩ := h.call hfits.1 (by omega)
      have hle := length_call_le (entries objs) call
      rw [← hentries, entries, entries, List.length_map, List.length_map] at hle
      obtain ⟨t', objs', hrest, h', hentries'⟩ := ih h₁ hfits.2 (by omega)
      rw [hentries] at hrest hentries'
      refine ⟨t', objs', ?_, h', hentries'⟩
      rw [QHashTbl.calls, hcall]
      simp only [Option.bind_eq_bind, Option.bind_some, hrest, Dict.calls]

end QHashTbl

open QHashTbl

/-- **A hash table is a dictionary**: every run of calls returns what it returns of one,
and `free` leaves no object behind. -/
theorem qhashtbl_is_dict (range : ℕ) [NeZero range] {calls : List QhCall}
    (hfits : ∀ call ∈ calls, ∀ key ∈ call.key, key.length ≤ intMax)
    (hcount : calls.length ≤ intMax) :
    ∃ t, (qhashtbl range).calls calls = some ((Dict.calls [] calls).1, t) ∧
      t.free_ = some fun _ => none := by
  obtain ⟨t, objs, hcalls, ht, -⟩ := (holds_qhashtbl range).calls hfits
    (by rw [List.length_nil, Nat.zero_add]; exact hcount)
  obtain ⟨t', hclear, hnone⟩ := ht.clear
  refine ⟨t, hcalls, ?_⟩
  rw [free_, hclear, Option.map_some]
  exact congrArg some (funext (hnone.chained.eq_nil_iff.mp rfl))

/-- A key that is put twice, in a table of one slot. -/
theorem qhashtbl_is_dict_x : ∃ t, (qhashtbl 1).calls
      [.put (some nameX) 7 true, .put (some nameX) 8 true, .get (some nameX), .remove nameX, .size] =
        some ([.bool true, .bool true, .data 7, .bool true, .int 0], t) ∧
    t.free_ = some fun _ => none :=
  qhashtbl_is_dict 1 (by decide) (by decide)

end SosFlow
