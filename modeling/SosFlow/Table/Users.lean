import SosFlow.Table.Dictionary
import SosFlow.Daemon.Registry
import SosFlow.Guid.Separators
import SosFlow.Pub.NameMap
import SosFlow.Lib.Trace

/-!
# What is kept in hash tables

The daemon keeps its pubs, and the database its notes of frames, behind
pointers in a table whose keys are guids in decimal. A handler looks a guid
up, makes an object and puts it there if there is none, and changes the
object in place. So a table is a function from guids to objects
(`Stands.visits`), which is how the rest of the daemon sees it
(`pub_table_refines`).

A pub has a table of its names, with positions from one on, and a client
has one of references. A reference stays what it was first set to.
-/

namespace SosFlow

open Trace QHashTbl

/-! ## Dictionaries -/

/-- **A put leaves what a key has**, and adds what it has not. -/
theorem Dict.lookup_put (d : Dict) (key other : CString) (data : BitVec 64) (mallocs : Bool) :
    (d.put key data mallocs).2.lookup other =
      (d.lookup other).or (if other = key ∧ mallocs = true then some data else none) := by
  by_cases hkey : key ∈ d.keys
  · rw [Dict.put, if_pos hkey]
    split
    case isTrue hother =>
      rw [hother.1]
      obtain ⟨entry, hentry, rfl⟩ := List.mem_map.mp hkey
      have hsome : (d.lookup entry.1).isSome :=
        List.lookup_isSome_iff.mpr ⟨entry, hentry, beq_self_eq_true _⟩
      obtain ⟨p, hp⟩ := Option.isSome_iff_exists.mp hsome
      rw [hp, Option.some_or]
    case isFalse => rw [Option.or_none]
  · rw [Dict.put, if_neg hkey]
    cases mallocs with
    | false => simp
    | true =>
        rw [if_pos rfl, List.lookup_append]
        refine congrArg _ ?_
        by_cases hother : other = key
        · simp [hother]
        · have hne : (other == key) = false := beq_false_of_ne hother
          rw [List.lookup_cons, hne, if_neg fun h => hother h.1]
          rfl

/-- What is looked up is an entry. -/
theorem Dict.mem_of_lookup {d : Dict} {key : CString} {p : BitVec 64} (h : d.lookup key = some p) :
    (key, p) ∈ d := by
  obtain ⟨before, after, rfl, -⟩ := List.lookup_eq_some_iff.mp h
  exact List.mem_append_right before List.mem_cons_self

/-- **The digits of a guid are those of its number.** -/
theorem ofDigits_guidStr (g : SosGuid) :
    Nat.ofDigits 10 ((guidStr g).bytes.reverse.map fun x => x.toNat - 48) = g.toNat := by
  by_cases hg : g = 0
  · subst hg
    rfl
  · have hdigits : (Nat.digits 10 g.toNat).map
        ((fun x : Byte => x.toNat - 48) ∘ fun d => BitVec.ofNat 8 (48 + d)) =
          Nat.digits 10 g.toNat := by
      rw [List.map_congr_left (g := id), List.map_id]
      intro d hd
      have hlt : d < 10 := Nat.digits_lt_base (by norm_num) hd
      show (BitVec.ofNat 8 (48 + d)).toNat - 48 = d
      rw [BitVec.toNat_ofNat, Nat.mod_eq_of_lt (by omega)]
      omega
    rw [guidStr_of_ne hg, ← List.map_reverse, List.reverse_reverse, List.map_map, hdigits,
      Nat.ofDigits_digits]

/-- **A guid is told from any other by its digits.** -/
theorem guidStr_inj {g g' : SosGuid} (h : guidStr g = guidStr g') : g = g' := by
  refine BitVec.eq_of_toNat_eq ?_
  rw [← ofDigits_guidStr, h, ofDigits_guidStr]

/-- The digits of a guid fit into any `int`. -/
theorem length_guidStr_le_intMax (g : SosGuid) : (guidStr g).length ≤ intMax :=
  (length_guidStr_le g).trans (by decide)

/-! ## Objects behind pointers -/

/-- **Objects of one kind**, and the table of the pointers to them. -/
structure ObjStore (range : ℕ) (β : Type) where
  table : QHashTbl range
  heap : BitVec 64 → Option β

/-- **What a handler does with the object of a guid**: `make` is what it makes of the one
that is there, or where there is none, if it makes any; `addr` is where a new one
is allocated. -/
structure ObjVisit (β : Type) where
  guid : SosGuid
  make : Option β → Option β
  addr : BitVec 64

/-- What a visit makes of a function from guids to objects. -/
def visited {β : Type} (f : SosGuid → Option β) (v : ObjVisit β) : SosGuid → Option β :=
  Function.update f v.guid ((v.make (f v.guid)).or (f v.guid))

namespace ObjStore

variable {range : ℕ} [NeZero range] {β : Type}

/-- Nothing is there. -/
def start (range : ℕ) (β : Type) : ObjStore range β := ⟨qhashtbl range, fun _ => none⟩

/-- The object of a guid, by way of its digits. -/
def lookup (s : ObjStore range β) (g : SosGuid) : Option (Option β) := do
  let p ← s.table.get (some (guidStr g))
  if p = 0 then some none else (s.heap p).map some

/-- **A visit**: an object is put into the table if there is none, or changed in place. -/
def visit (s : ObjStore range β) (v : ObjVisit β) : Option (ObjStore range β) := do
  let p ← s.table.get (some (guidStr v.guid))
  if p = 0 then
    match v.make none with
    | none => some s
    | some b =>
      if v.addr = 0 ∨ (s.heap v.addr).isSome then none
      else
        let (_, table) ← s.table.put (some (guidStr v.guid)) v.addr true
        some ⟨table, Function.update s.heap v.addr (some b)⟩
  else
    let b ← s.heap p
    some { s with heap := Function.update s.heap p (some ((v.make (some b)).getD b)) }

/-- **The store is a function from guids to objects.** -/
structure Stands (s : ObjStore range β) (f : SosGuid → Option β) (objs : List (ℕ × QhNobj)) :
    Prop where
  holds : s.table.Holds objs
  nonzero : ∀ entry ∈ entries objs, entry.2 ≠ 0
  live : ∀ entry ∈ entries objs, (s.heap entry.2).isSome
  apart : ((entries objs).map Prod.snd).Nodup
  reached : ∀ g, f g = ((entries objs).lookup (guidStr g)).bind s.heap

variable {s s' : ObjStore range β} {f : SosGuid → Option β} {objs : List (ℕ × QhNobj)}
  {v : ObjVisit β}

theorem stands_start (range : ℕ) [NeZero range] (β : Type) :
    (start range β).Stands (fun _ => none) [] :=
  ⟨holds_qhashtbl range, fun _ h => absurd h List.not_mem_nil, fun _ h => absurd h List.not_mem_nil,
    List.nodup_nil, fun _ => rfl⟩

/-- What the table says of a guid: nothing, or the pointer to its object. -/
theorem Stands.get (h : s.Stands f objs) (g : SosGuid) :
    (s.table.get (some (guidStr g)) = some 0 ∧ (entries objs).lookup (guidStr g) = none ∧
      f g = none) ∨
    ∃ p b, s.table.get (some (guidStr g)) = some p ∧ p ≠ 0 ∧
      (entries objs).lookup (guidStr g) = some p ∧ s.heap p = some b ∧ f g = some b := by
  have hget : s.table.get (some (guidStr g)) = some ((entries objs).get (guidStr g)) :=
    h.holds.qhget (length_guidStr_le_intMax g)
  have hreached := h.reached g
  cases hlookup : (entries objs).lookup (guidStr g) with
  | none =>
      rw [Dict.get, hlookup] at hget
      rw [hlookup] at hreached
      exact .inl ⟨hget, rfl, hreached⟩
  | some p =>
      rw [Dict.get, hlookup] at hget
      rw [hlookup] at hreached
      have hmem := Dict.mem_of_lookup hlookup
      obtain ⟨b, hb⟩ := Option.isSome_iff_exists.mp (h.live _ hmem)
      exact .inr ⟨p, b, hget, h.nonzero _ hmem, rfl, hb, hreached.trans hb⟩

/-- **A handler finds the object of a guid.** -/
theorem Stands.lookup (h : s.Stands f objs) (g : SosGuid) : s.lookup g = some (f g) := by
  rw [ObjStore.lookup]
  rcases h.get g with ⟨hget, -, hf⟩ | ⟨p, b, hget, hp, -, hb, hf⟩
  · simp only [hget, Option.bind_eq_bind, Option.bind_some, if_true, hf]
  · simp only [hget, Option.bind_eq_bind, Option.bind_some, if_neg hp, hb, hf, Option.map_some]

/-- A guid that has no entry has no key in the table. -/
theorem entries_put {g : SosGuid} (hlookup : (entries objs).lookup (guidStr g) = none)
    (p : BitVec 64) :
    ((entries objs).put (guidStr g) p true).2 = entries objs ++ [(guidStr g, p)] := by
  have hkey : guidStr g ∉ (entries objs).keys := by
    intro hmem
    obtain ⟨entry, hentry, hentry'⟩ := List.mem_map.mp hmem
    have hnone := List.lookup_eq_none_iff.mp hlookup entry hentry
    exact bne_iff_ne.mp hnone hentry'.symm
  rw [Dict.put, if_neg hkey, if_pos rfl]

/-- **A new object**, behind a pointer that is in no entry. -/
theorem Stands.added (h : s.Stands f objs) {table : QHashTbl range} {objs' : List (ℕ × QhNobj)}
    {g : SosGuid} {p : BitVec 64} (hholds : table.Holds objs')
    (hentries : entries objs' = ((entries objs).put (guidStr g) p true).2)
    (hlookup : (entries objs).lookup (guidStr g) = none) (hp : p ≠ 0) (hfree : s.heap p = none)
    (b : β) : (⟨table, Function.update s.heap p (some b)⟩ : ObjStore range β).Stands
      (Function.update f g (some b)) objs' := by
  have hnew := hentries.trans (entries_put hlookup p)
  have hother : ∀ entry ∈ entries objs, entry.2 ≠ p := by
    intro entry hentry heq
    have hlive := h.live entry hentry
    rw [heq, hfree] at hlive
    cases hlive
  refine ⟨hholds, ?_, ?_, ?_, fun g' => ?_⟩
  · rw [hnew]
    intro entry hentry
    rcases List.mem_append.mp hentry with hentry | hentry
    · exact h.nonzero entry hentry
    · rw [List.mem_singleton.mp hentry]
      exact hp
  · rw [hnew]
    intro entry hentry
    rcases List.mem_append.mp hentry with hentry | hentry
    · show (Function.update s.heap p (some b) entry.2).isSome
      rw [Function.update_of_ne (hother entry hentry)]
      exact h.live entry hentry
    · rw [List.mem_singleton.mp hentry]
      show (Function.update s.heap p (some b) p).isSome
      rw [Function.update_self]
      rfl
  · rw [hnew, List.map_append, List.nodup_append]
    refine ⟨h.apart, List.nodup_singleton _, fun a ha a' ha' => ?_⟩
    obtain ⟨entry, hentry, rfl⟩ := List.mem_map.mp ha
    rw [List.mem_singleton.mp ha']
    exact hother entry hentry
  · rw [hentries, Dict.lookup_put]
    by_cases hg : g' = g
    · subst hg
      rw [Function.update_self, hlookup, Option.none_or, if_pos ⟨rfl, rfl⟩, Option.bind_some]
      exact (Function.update_self p (some b) s.heap).symm
    · rw [Function.update_of_ne hg, if_neg (fun hboth => hg (guidStr_inj hboth.1)),
        Option.or_none, h.reached g']
      cases hold : (entries objs).lookup (guidStr g') with
      | none => rfl
      | some p' =>
          rw [Option.bind_some, Option.bind_some]
          exact (Function.update_of_ne (hother _ (Dict.mem_of_lookup hold)) _ _).symm

/-- **An object that is changed** where it is. -/
theorem Stands.changed (h : s.Stands f objs) {g : SosGuid} {p : BitVec 64}
    (hlookup : (entries objs).lookup (guidStr g) = some p) (b : β) :
    ({ s with heap := Function.update s.heap p (some b) }).Stands
      (Function.update f g (some b)) objs := by
  refine ⟨h.holds, h.nonzero, fun entry hentry => ?_, h.apart, fun g' => ?_⟩
  · show (Function.update s.heap p _ entry.2).isSome
    by_cases hentry' : entry.2 = p
    · rw [hentry', Function.update_self]
      rfl
    · rw [Function.update_of_ne hentry']
      exact h.live entry hentry
  by_cases hg : g' = g
  · subst hg
    rw [Function.update_self, hlookup, Option.bind_some]
    exact (Function.update_self p _ s.heap).symm
  rw [Function.update_of_ne hg, h.reached g']
  cases hold : (entries objs).lookup (guidStr g') with
  | none => rfl
  | some p' =>
      -- two guids with one pointer would have one entry
      have hne : p' ≠ p := by
        rintro rfl
        have hsame := List.inj_on_of_nodup_map h.apart (Dict.mem_of_lookup hold)
          (Dict.mem_of_lookup hlookup) rfl
        exact hg (guidStr_inj (congrArg Prod.fst hsame))
      rw [Option.bind_some, Option.bind_some]
      exact (Function.update_of_ne hne _ _).symm

/-- **A visit** does to the function what it is for. -/
theorem Stands.visit (h : s.Stands f objs) (hcount : objs.length < intMax) (haddr : v.addr ≠ 0)
    (hfree : s.heap v.addr = none) : ∃ s' objs', s.visit v = some s' ∧
      s'.Stands (visited f v) objs' ∧ objs'.length ≤ objs.length + 1 ∧
      ∀ a, a ≠ v.addr → s.heap a = none → s'.heap a = none := by
  rcases h.get v.guid with ⟨hget, hlookup, hf⟩ | ⟨p, b, hget, hp, hlookup, hb, hf⟩
  · cases hmake : v.make none with
    | none =>
        refine ⟨s, objs, ?_, ?_, Nat.le_succ _, fun a _ ha => ha⟩
        · simp only [ObjStore.visit, hget, Option.bind_eq_bind, Option.bind_some, if_true, hmake]
        · rw [visited, hf, hmake, Option.or_none, ← hf, Function.update_eq_self]
          exact h
    | some b =>
        obtain ⟨table, objs', hput, hholds, hentries⟩ :=
          h.holds.qhput (length_guidStr_le_intMax v.guid) hcount v.addr true
        refine ⟨⟨table, Function.update s.heap v.addr (some b)⟩, objs', ?_, ?_, ?_,
          fun a ha hnone => (Function.update_of_ne ha _ _).trans hnone⟩
        · simp only [ObjStore.visit, hget, Option.bind_eq_bind, Option.bind_some, if_true, hmake,
            haddr, hfree, Option.isSome_none, Bool.false_eq_true, or_self, if_false]
          rw [QHashTbl.put, hput, Option.bind_some]
        · rw [visited, hf, hmake, Option.or_none]
          exact h.added hholds hentries hlookup haddr hfree b
        · have hlength := congrArg List.length (hentries.trans (entries_put hlookup v.addr))
          rw [entries, entries, List.length_append, List.length_map, List.length_map] at hlength
          exact hlength.le
  · refine ⟨{ s with heap := Function.update s.heap p (some ((v.make (some b)).getD b)) }, objs, ?_,
      ?_, Nat.le_succ _, fun a _ hnone => ?_⟩
    · simp only [ObjStore.visit, hget, Option.bind_eq_bind, Option.bind_some, if_neg hp, hb]
    · have hvisited : (v.make (f v.guid)).or (f v.guid) = some ((v.make (some b)).getD b) := by
        rw [hf]
        cases v.make (some b) <;> rfl
      rw [visited, hvisited]
      exact h.changed hlookup _
    · have hne : a ≠ p := by
        rintro rfl
        rw [hb] at hnone
        cases hnone
      exact (Function.update_of_ne hne _ _).trans hnone

/-- **Visits, one after the other**, with an address for each that may be needed. -/
theorem Stands.visits (h : s.Stands f objs) (visits : List (ObjVisit β))
    (hcount : objs.length + visits.length ≤ intMax) (hnodup : (visits.map (·.addr)).Nodup)
    (haddr : ∀ v ∈ visits, v.addr ≠ 0 ∧ s.heap v.addr = none) :
    ∃ s' objs', run ObjStore.visit s visits = some s' ∧ s'.Stands (visits.foldl visited f) objs' := by
  induction visits generalizing s f objs with
  | nil => exact ⟨s, objs, rfl, h⟩
  | cons v rest ih =>
      rw [List.length_cons] at hcount
      rw [List.map_cons, List.nodup_cons] at hnodup
      rw [List.forall_mem_cons] at haddr
      obtain ⟨s₁, objs₁, hvisit, h₁, hle, hkept⟩ := h.visit (by omega) haddr.1.1 haddr.1.2
      obtain ⟨s', objs', hrun, h'⟩ := ih h₁ (by omega) hnodup.2 fun w hw => by
        refine ⟨(haddr.2 w hw).1, hkept w.addr ?_ (haddr.2 w hw).2⟩
        exact fun heq => hnodup.1 (heq ▸ List.mem_map_of_mem hw)
      exact ⟨s', objs', by rw [run_cons, hvisit, Option.bind_some, hrun], h'⟩

end ObjStore

/-! ## The pubs of the daemon -/

/-- `SOS_DEFAULT_TABLE_SIZE`. -/
def sosDefaultTableSize : ℕ := 655360

instance : NeZero sosDefaultTableSize := ⟨by decide⟩

/-- **What the handler of a message does with its pub.** A VAL_SNAPS makes none. -/
def PubMsg.visit (config : SosConfig) (addr : BitVec 64) : PubMsg → ObjVisit SosPub
  | .announce m =>
    { guid := m.refGuid
      make := fun pub => some
        { sosAnnounceFromBuffer (pub.getD (sosPubInit config m.refGuid (guidStr m.refGuid) 0)) m with
          announced := true }
      addr }
  | .publish g apply _ =>
    { guid := g
      make := fun pub => some ((pub.getD (sosPubInit config g (guidStr g) 0)).applied apply)
      addr }
  | .valSnaps g apply _ => { guid := g, make := fun pub => pub.map (·.applied apply), addr }

namespace Registry

variable {r : Registry}

/-- A message changes the pubs as its handler visits them. -/
theorem pubTable_handle (msg : PubMsg) (addr : BitVec 64) :
    (r.handle msg).daemon.pubTable = visited r.daemon.pubTable (msg.visit r.daemon.config addr) ∧
      (r.handle msg).daemon.config = r.daemon.config := by
  have hput (g : SosGuid) (pub : SosPub) (make : Option SosPub → Option SosPub)
      (hmake : make (r.daemon.pubTable g) = some pub) :
      (fun g' => if g' = g then some pub else r.daemon.pubTable g') =
        visited r.daemon.pubTable ⟨g, make, addr⟩ := by
    funext g'
    rw [visited]
    by_cases hg : g' = g
    · subst hg
      rw [if_pos rfl, Function.update_self]
      show _ = (make (r.daemon.pubTable g')).or _
      rw [hmake, Option.some_or]
    · rw [if_neg hg, Function.update_of_ne hg]
  cases msg with
  | announce m => exact ⟨hput m.refGuid _ _ rfl, rfl⟩
  | publish g apply syncPending => exact ⟨hput g _ _ rfl, rfl⟩
  | valSnaps g apply queue =>
      rw [Registry.handle_valSnaps]
      cases hpub : r.daemon.pubTable g with
      | none =>
          refine ⟨?_, rfl⟩
          show r.daemon.pubTable = Function.update _ g _
          rw [PubMsg.visit]
          simp only [hpub, Option.map_none, Option.or_none]
          rw [← hpub, Function.update_eq_self]
      | some pub =>
          refine ⟨hput g (pub.applied apply) (Option.map fun pub => pub.applied apply) ?_, rfl⟩
          rw [hpub, Option.map_some]

theorem pubTable_after (msgs : List (PubMsg × BitVec 64)) :
    (r.after (msgs.map Prod.fst)).daemon.pubTable =
        (msgs.map fun m => m.1.visit r.daemon.config m.2).foldl visited r.daemon.pubTable ∧
      (r.after (msgs.map Prod.fst)).daemon.config = r.daemon.config := by
  induction msgs using List.reverseRecOn with
  | nil => exact ⟨rfl, rfl⟩
  | append_singleton msgs m ih =>
      obtain ⟨htable, hconfig⟩ := pubTable_handle (r := r.after (msgs.map Prod.fst)) m.1 m.2
      rw [ih.1, ih.2] at htable
      rw [List.map_append, List.map_append, List.foldl_append, List.map_singleton, after_concat]
      exact ⟨htable, hconfig.trans ih.2⟩

end Registry

/-- **`SOSD.pub_table` is the table of the daemon**: behind any messages, the pub that a
handler finds by the digits of a guid is the pub of that guid. -/
theorem pub_table_refines (config : SosConfig) (queue : Option (SosPipe SosValSnap))
    (dbDisabled : Bool) (msgs : List (PubMsg × BitVec 64)) (hcount : msgs.length ≤ intMax)
    (hnodup : (msgs.map Prod.snd).Nodup) (hnull : ∀ m ∈ msgs, m.2 ≠ 0) :
    ∃ s : ObjStore sosDefaultTableSize SosPub,
      run ObjStore.visit (.start sosDefaultTableSize SosPub)
        (msgs.map fun m => m.1.visit config m.2) = some s ∧
      ∀ g, s.lookup g = some
        (((Registry.start config queue dbDisabled).after (msgs.map Prod.fst)).daemon.pubTable g) := by
  have haddr (m : PubMsg × BitVec 64) : (m.1.visit config m.2).addr = m.2 := by
    cases m.1 <;> rfl
  have haddrs : (msgs.map fun m => m.1.visit config m.2).map (·.addr) = msgs.map Prod.snd := by
    rw [List.map_map]
    exact List.map_congr_left fun m _ => haddr m
  obtain ⟨s, objs, hrun, hstands⟩ := (ObjStore.stands_start sosDefaultTableSize SosPub).visits
    (msgs.map fun m => m.1.visit config m.2)
    (by rw [List.length_map, List.length_nil, Nat.zero_add]; exact hcount)
    (haddrs ▸ hnodup) (by
      intro v hv
      obtain ⟨m, hm, rfl⟩ := List.mem_map.mp hv
      refine ⟨?_, rfl⟩
      rw [haddr]
      exact hnull m hm)
  refine ⟨s, hrun, fun g => ?_⟩
  rw [hstands.lookup, (Registry.pubTable_after msgs).1]
  rfl

/-- The pubs of two guids, the first of them changed in place by a second PUBLISH. -/
def threePublishes : List (PubMsg × BitVec 64) :=
  [(.publish 10 id false, 1), (.publish 11 id false, 2),
    (.publish 10 (fun pub => { pub with frame := 5 }) false, 3), (.valSnaps 12 id none, 4)]

theorem pub_table_refines_publish : ∃ s : ObjStore sosDefaultTableSize SosPub,
    run ObjStore.visit (.start sosDefaultTableSize SosPub)
      (threePublishes.map fun m => m.1.visit plainConfig m.2) = some s ∧
    s.lookup 10 = some (some { sosPubInit plainConfig 10 (guidStr 10) 0 with frame := 5 }) ∧
    s.lookup 11 = some (some (sosPubInit plainConfig 11 (guidStr 11) 0)) ∧
    s.lookup 12 = some none := by
  obtain ⟨s, hrun, hlookup⟩ := pub_table_refines plainConfig none true threePublishes
    (by decide) (by decide) (by decide)
  exact ⟨s, hrun, hlookup 10, hlookup 11, hlookup 12⟩

/-! ## The names of a pub -/

/-- **`SOS_pub_search`**, in the table of the names. -/
def pubSearchIn (t : QHashTbl sosDefaultTableSize) (name : CString) : Option ℤ :=
  (t.get (some name)).map fun i => ((i - 1).setWidth 32).toInt

/-- The table, and `elem_count`. -/
structure NameTable where
  table : QHashTbl sosDefaultTableSize
  elemCount : ℕ

/-- **What `SOS_pack` does with a name**: one that is not found is put there, with its
position and one. -/
def NameTable.pack (n : NameTable) (name : CString) : Option NameTable := do
  let pos ← pubSearchIn n.table name
  if pos < 0 then
    let (_, table) ← n.table.put (some name) (BitVec.ofNat 64 (n.elemCount + 1)) true
    some ⟨table, n.elemCount + 1⟩
  else some n

/-- The names in the table are those that were packed, in order. -/
structure NameTable.Lists (n : NameTable) (names : List CString) (objs : List (ℕ × QhNobj)) :
    Prop where
  holds : n.table.Holds objs
  count : n.elemCount = names.length
  positions : ∀ name, (entries objs).lookup name =
    (names.idxOf? name).map fun pos => BitVec.ofNat 64 (pos + 1)

theorem eraseDups_concat (names : List CString) (name : CString) :
    (names ++ [name]).eraseDups =
      if name ∈ names.eraseDups then names.eraseDups else names.eraseDups ++ [name] := by
  rw [List.eraseDups_append]
  by_cases hname : name ∈ names
  · have hnone : [name].removeAll names = [] := by simpa [List.removeAll] using hname
    rw [hnone, if_pos (List.mem_eraseDups.mpr hname)]
    exact List.append_nil _
  · have hone : [name].removeAll names = [name] := by simpa [List.removeAll] using hname
    rw [hone, if_neg fun h => hname (List.mem_eraseDups.mp h)]
    rfl

namespace NameTable

variable {n : NameTable} {names : List CString} {objs : List (ℕ × QhNobj)}

/-- **The search finds the position.** -/
theorem Lists.search (h : n.Lists names objs) (hcount : names.length ≤ intMax) {name : CString}
    (hfits : name.length ≤ intMax) : pubSearchIn n.table name = some (positionIn names name) := by
  have hget : n.table.get (some name) = some ((entries objs).get name) := h.holds.qhget hfits
  rw [pubSearchIn, hget, Option.map_some, Dict.get, h.positions, positionIn]
  cases hpos : names.idxOf? name with
  | none => rfl
  | some pos =>
      have hlt : pos < names.length := by
        obtain ⟨hlt, -⟩ := List.findIdx?_eq_some_iff_getElem.mp hpos
        exact hlt
      have hbound : intMax = 2147483647 := rfl
      rw [Option.map_some, Option.getD_some, Option.elim_some]
      refine congrArg some ?_
      have hword : BitVec.ofNat 64 (pos + 1) - 1 = BitVec.ofNat 64 pos := by
        rw [BitVec.ofNat_add]
        exact BitVec.add_sub_cancel _ _
      rw [hword, BitVec.toInt_eq_toNat_of_lt]
      · rw [BitVec.toNat_setWidth, BitVec.toNat_ofNat, Nat.mod_eq_of_lt (by omega),
          Nat.mod_eq_of_lt (by omega)]
      · rw [BitVec.toNat_setWidth, BitVec.toNat_ofNat, Nat.mod_eq_of_lt (by omega),
          Nat.mod_eq_of_lt (by omega)]
        omega

/-- **A name is packed**: it is in the table from then on, at its position. -/
theorem Lists.pack (h : n.Lists names objs) (hcount : objs.length < intMax)
    (hnames : names.length ≤ intMax) {name : CString} (hfits : name.length ≤ intMax) :
    ∃ n' objs', n.pack name = some n' ∧ objs'.length ≤ objs.length + 1 ∧
      n'.Lists (if name ∈ names then names else names ++ [name]) objs' := by
  have hsearch := h.search hnames hfits
  by_cases hname : name ∈ names
  · have hnot : ¬ positionIn names name < 0 := by
      obtain ⟨pos, hpos⟩ := Option.isSome_iff_exists.mp (List.isSome_idxOf?.mpr hname)
      rw [positionIn, hpos]
      exact not_lt.mpr (Int.natCast_nonneg pos)
    refine ⟨n, objs, ?_, Nat.le_succ _, by rw [if_pos hname]; exact h⟩
    simp only [NameTable.pack, hsearch, Option.bind_eq_bind, Option.bind_some, if_neg hnot]
  · have hnone : names.idxOf? name = none := List.idxOf?_eq_none_iff.mpr hname
    have hneg : positionIn names name < 0 := by
      rw [positionIn, hnone]
      decide
    obtain ⟨table, objs', hput, hholds, hentries⟩ :=
      h.holds.qhput hfits hcount (BitVec.ofNat 64 (n.elemCount + 1)) true
    have hlength : objs'.length ≤ objs.length + 1 := by
      have hle := length_call_le (entries objs)
        (.put (some name) (BitVec.ofNat 64 (n.elemCount + 1)) true)
      have heq := congrArg List.length hentries
      rw [entries, List.length_map] at heq
      rw [heq]
      exact hle.trans_eq (by rw [entries, List.length_map])
    refine ⟨⟨table, n.elemCount + 1⟩, objs', ?_, hlength, hholds, ?_, fun other => ?_⟩
    · simp only [NameTable.pack, hsearch, Option.bind_eq_bind, Option.bind_some, if_pos hneg]
      rw [QHashTbl.put, hput, Option.bind_some]
    · show n.elemCount + 1 = _
      rw [if_neg hname, List.length_append, List.length_singleton, h.count]
    · rw [hentries, Dict.lookup_put, h.positions, if_neg hname, idxOf?_concat hname]
      by_cases hother : other = name
      · subst hother
        rw [hnone, Option.map_none, Option.none_or, if_pos ⟨rfl, rfl⟩, if_pos rfl,
          Option.map_some, h.count]
      · rw [if_neg fun hboth => hother hboth.1, if_neg hother, Option.or_none]

/-- **Every name is found at its position**, whichever names were packed, how often and
in which order. -/
theorem search_names (packed : List CString) (hfits : ∀ name ∈ packed, name.length ≤ intMax)
    (hcount : packed.length ≤ intMax) :
    ∃ n, run NameTable.pack ⟨qhashtbl sosDefaultTableSize, 0⟩ packed = some n ∧
      n.elemCount = packed.eraseDups.length ∧
      ∀ name, name.length ≤ intMax →
        pubSearchIn n.table name = some (positionIn packed.eraseDups name) := by
  have hlists : ∃ n objs, run NameTable.pack ⟨qhashtbl sosDefaultTableSize, 0⟩ packed = some n ∧
      n.Lists packed.eraseDups objs ∧ objs.length ≤ packed.length ∧
        packed.eraseDups.length ≤ packed.length := by
    induction packed using List.reverseRecOn with
    | nil =>
        refine ⟨_, [], rfl, ⟨holds_qhashtbl _, rfl, fun _ => rfl⟩, le_rfl, le_rfl⟩
    | append_singleton packed name ih =>
        rw [List.length_append, List.length_singleton] at hcount
        obtain ⟨n, objs, hrun, hn, hobjs, hnames⟩ :=
          ih (fun other hother => hfits other (List.mem_append_left _ hother)) (by omega)
        obtain ⟨n', objs', hpack, hlength, hn'⟩ := hn.pack (by omega) (by omega)
          (hfits name (List.mem_append_right _ (List.mem_singleton_self name)))
        rw [← eraseDups_concat] at hn'
        refine ⟨n', objs', ?_, hn', ?_, ?_⟩
        · rw [run_append, hrun, Option.bind_some, run_cons, hpack]
          rfl
        · rw [List.length_append, List.length_singleton]
          omega
        · rw [eraseDups_concat, List.length_append, List.length_singleton]
          split
          · omega
          · rw [List.length_append, List.length_singleton]
            omega
  obtain ⟨n, objs, hrun, hn, -, hnames⟩ := hlists
  exact ⟨n, hrun, hn.count, fun name hname => hn.search (hnames.trans hcount) hname⟩

/-- A name that was packed twice is at the first position, and another behind it. -/
theorem search_names_x : ∃ n : NameTable,
    run NameTable.pack ⟨qhashtbl sosDefaultTableSize, 0⟩ [nameX, literal "y", nameX] = some n ∧
    n.elemCount = 2 ∧ pubSearchIn n.table nameX = some 0 ∧
    pubSearchIn n.table (literal "y") = some 1 ∧ pubSearchIn n.table (literal "z") = some (-1) := by
  obtain ⟨n, hrun, hcount, hsearch⟩ := search_names [nameX, literal "y", nameX] (by decide)
    (by decide)
  exact ⟨n, hrun, hcount, hsearch nameX (by decide), hsearch (literal "y") (by decide),
    hsearch (literal "z") (by decide)⟩

end NameTable

/-! ## References -/

/-- **A call of `SOS_reference_set`**, and whether there was memory for an entry of the
table. -/
structure RefSet where
  name : CString
  pointer : BitVec 64
  mallocs : Bool

/-- `SOS_reference_set`. -/
def sosReferenceSet (t : QHashTbl sosDefaultTableSize) (set : RefSet) :
    Option (QHashTbl sosDefaultTableSize) :=
  (t.put (some set.name) set.pointer set.mallocs).map Prod.snd

/-- `SOS_reference_get`. -/
def sosReferenceGet (t : QHashTbl sosDefaultTableSize) (name : CString) : Option (BitVec 64) :=
  t.get (some name)

/-- **A reference stays what it was first set to**, whoever sets it again. -/
theorem reference_first (sets : List RefSet) (hfits : ∀ set ∈ sets, set.name.length ≤ intMax)
    (hcount : sets.length ≤ intMax) :
    ∃ t, run sosReferenceSet (qhashtbl sosDefaultTableSize) sets = some t ∧
      ∀ name, name.length ≤ intMax → sosReferenceGet t name = some
        (((sets.find? fun set => set.name = name ∧ set.mallocs = true).map (·.pointer)).getD 0) := by
  have hsets : ∃ t objs, run sosReferenceSet (qhashtbl sosDefaultTableSize) sets = some t ∧
      t.Holds objs ∧ objs.length ≤ sets.length ∧ ∀ name, (entries objs).lookup name =
        (sets.find? fun set => set.name = name ∧ set.mallocs = true).map (·.pointer) := by
    induction sets using List.reverseRecOn with
    | nil => exact ⟨_, [], rfl, holds_qhashtbl _, le_rfl, fun _ => rfl⟩
    | append_singleton sets set ih =>
        rw [List.length_append, List.length_singleton] at hcount
        obtain ⟨t, objs, hrun, ht, hlength, hlookup⟩ :=
          ih (fun other hother => hfits other (List.mem_append_left _ hother)) (by omega)
        obtain ⟨t', objs', hput, ht', hentries⟩ := ht.qhput
          (hfits set (List.mem_append_right _ (List.mem_singleton_self set))) (by omega)
          set.pointer set.mallocs
        refine ⟨t', objs', ?_, ht', ?_, fun name => ?_⟩
        · rw [run_append, hrun, Option.bind_some, run_cons, sosReferenceSet, QHashTbl.put, hput]
          rfl
        · have hle := length_call_le (entries objs) (.put (some set.name) set.pointer set.mallocs)
          have heq := congrArg List.length hentries
          rw [entries, List.length_map] at heq
          rw [heq, List.length_append, List.length_singleton]
          refine hle.trans ?_
          rw [entries, List.length_map]
          omega
        · rw [hentries, Dict.lookup_put, hlookup, List.find?_append, Option.map_or,
            List.find?_singleton]
          refine congrArg _ ?_
          by_cases hname : name = set.name ∧ set.mallocs = true
          · rw [if_pos hname, if_pos (decide_eq_true ⟨hname.1.symm, hname.2⟩)]
            rfl
          · rw [if_neg hname, if_neg]
            · rfl
            · rw [decide_eq_true_eq]
              exact fun hboth => hname ⟨hboth.1.symm, hboth.2⟩
  obtain ⟨t, objs, hrun, ht, -, hlookup⟩ := hsets
  refine ⟨t, hrun, fun name hname => ?_⟩
  rw [← hlookup]
  exact ht.qhget hname

/-- There was no memory to set it to 7. It was then set to 8 and to 10, and another to 9. -/
def fourSets : List RefSet :=
  [⟨nameX, 7, false⟩, ⟨nameX, 8, true⟩, ⟨literal "y", 9, true⟩, ⟨nameX, 10, true⟩]

theorem reference_first_x : ∃ t,
    run sosReferenceSet (qhashtbl sosDefaultTableSize) fourSets = some t ∧
    sosReferenceGet t nameX = some 8 ∧ sosReferenceGet t (literal "y") = some 9 ∧
    sosReferenceGet t (literal "z") = some 0 := by
  obtain ⟨t, hrun, hget⟩ := reference_first fourSets (by decide) (by decide)
  exact ⟨t, hrun, hget nameX (by decide), hget (literal "y") (by decide),
    hget (literal "z") (by decide)⟩

end SosFlow
