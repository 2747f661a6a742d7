import SosFlow.Daemon.Elements
import SosFlow.Lib.Trace

/-!
# The definitions of a pub's elements

A client packs into its pub and announces it whenever it likes; the ANNOUNCEs
arrive in the order they were sent, and between them PUBLISHes of any
content. An ANNOUNCE leaves alone every element that looks defined already,
and only then puts a name into the table, so that what holds behind it is an
invariant of the whole history: a position that has been announced has the
client's guid, name and type, and the table names it; one that has not has
no guid yet.
-/

namespace SosFlow

open Trace

/-! ## The system -/

/-- **A client's pub and the daemon's**, with the client's pub as it was at
each ANNOUNCE, those that have not arrived and those that have. -/
structure Definitions where
  client : ClientPub
  sent : List SosPub
  applied : List SosPub
  daemon : SosPub

/-- What happens to them. -/
inductive DefEvent where
  | pack (a : PackArgs)
  | announce
  | arrive
  | publish (m : PublishMsg)

/-- The next ANNOUNCE is applied. -/
def Definitions.arrive (s : Definitions) : Option Definitions :=
  match s.sent with
  | [] => none
  | p :: rest => some { s with
      sent := rest
      applied := s.applied ++ [p]
      daemon := sosAnnounceFromBuffer s.daemon p.announceMsg }

/-- One event. -/
def defStep (s : Definitions) : DefEvent → Option Definitions
  | .pack a => (s.client.pack a).map fun c => { s with client := c }
  | .announce => some { s with
      client := { s.client with pub := s.client.pub.afterAnnounce }
      sent := s.sent ++ [s.client.pub] }
  | .arrive => s.arrive
  | .publish m => (sosPublishFromBuffer s.daemon m).map fun pub => { s with daemon := pub }

/-- A pub of a client, and one that the daemon has just made. -/
def Definitions.start (config config' : SosConfig) (guid guid' : SosGuid) (title title' : CString)
    (nature nature' : CInt) (newSize newSize' : ℕ) : Definitions where
  client := ⟨sosPubInitSized config guid title nature newSize, .empty⟩
  sent := []
  applied := []
  daemon := sosPubInitSized config' guid' title' nature' newSize'

/-- **A pack with a name that fits its array**, and a guid for a new element. -/
def NamesElem (s : Definitions) : DefEvent → Prop
  | .pack a => a.name.length < sosDefaultStringLen ∧
      (sosPubSearch s.client.pub a.name = none → a.guid ≠ 0)
  | _ => True

/-- **The daemon's element has the client's definition.** -/
structure SosData.SameDefinition (data client : SosData) : Prop where
  guid : data.guid = client.guid
  name : data.name = client.name
  type : data.type = client.type
  valMeta : data.valMeta = client.valMeta

/-- **What an ANNOUNCE is for**, of a client's pub `p` to a daemon's pub that has
seen others. -/
structure Announced (s : Definitions) (p pub : SosPub) : Prop where
  count : pub.elemCount = p.elemCount
  room : pub.elemCount ≤ pub.elemMax
  elem : ∀ (pos : ℕ) (data : SosData), p.data[pos]? = some data →
    ∃ data', pub.data[pos]? = some data' ∧ data'.SameDefinition data
  search : ∀ (pos : ℕ) (data : SosData), p.data[pos]? = some data →
    sosPubSearch pub data.name = some pos ∧ sosPubSearch s.client.pub data.name = some pos
  first : ∀ pos, pos < p.elemCount → (∀ q ∈ s.applied, q.elemCount ≤ pos) →
    ∃ data, pub.data[pos]? = some data ∧ data.sync = .renew

/-! ## The client -/

/-- **A client's elements**: each is found under its name, which fits its array,
and has a guid. -/
structure SosPub.Indexed (pub : SosPub) : Prop where
  search : ∀ (pos : ℕ) (data : SosData), pub.data[pos]? = some data →
    sosPubSearch pub data.name = some pos
  name : ∀ data ∈ pub.data, data.name.length < sosDefaultStringLen
  guid : ∀ data ∈ pub.data, data.guid ≠ 0

/-- The definitions of a client's elements. -/
def SosPub.defs (pub : SosPub) : List AnnounceElem := pub.data.map SosData.announce

theorem indexed_init (config : SosConfig) (guid : SosGuid) (title : CString) (nature : CInt)
    (newSize : ℕ) : (sosPubInitSized config guid title nature newSize).Indexed :=
  ⟨fun _ _ h => (by cases h), fun _ h => (by cases h), fun _ h => (by cases h)⟩

/-- **A pack keeps the definitions** and may put one behind them. -/
theorem ClientPub.pack_defs {c c' : ClientPub} {a : PackArgs} (h : c.pack a = some c') :
    c.pub.defs <+: c'.pub.defs := by
  obtain ⟨-, hknown | hnew⟩ := ClientPub.pack_cases h
  · obtain ⟨pos, data, v, -, hdata, -, hpub, -⟩ := hknown
    have hsame : c'.pub.defs = c.pub.defs := by
      rw [hpub, SosPub.defs, SosPub.setElem]
      refine List.ext_getElem? fun i => ?_
      rw [List.getElem?_map, List.getElem?_set, SosPub.defs, List.getElem?_map]
      split
      case isTrue heq =>
        subst heq
        rw [hdata, if_pos (List.getElem?_eq_some_iff.mp hdata).1]
        rfl
      case isFalse => rfl
    rw [hsame]
  · obtain ⟨v, -, -, hpub, -⟩ := hnew
    have hdata := SosPub.data_setElem_addElem c.pub a.guid a.name a.val.type
      ((c.pub.newData a.guid a.name a.val.type).renew v a.now)
    rw [← hpub] at hdata
    rw [SosPub.defs, SosPub.defs, hdata, List.map_append]
    exact List.prefix_append _ _

/-- **A pack keeps the client's elements findable.** -/
theorem ClientPub.pack_indexed {c c' : ClientPub} {a : PackArgs} (hc : c.pub.Indexed)
    (hname : a.name.length < sosDefaultStringLen)
    (hguid : sosPubSearch c.pub a.name = none → a.guid ≠ 0) (h : c.pack a = some c') :
    c'.pub.Indexed := by
  obtain ⟨-, hknown | hnew⟩ := ClientPub.pack_cases h
  · obtain ⟨pos, data, v, -, hdata, -, hpub, -⟩ := hknown
    -- the element that is renewed keeps its guid and its name
    have hold : ∀ (i : ℕ) (d : SosData), c'.pub.data[i]? = some d →
        ∃ d₀, c.pub.data[i]? = some d₀ ∧ d.guid = d₀.guid ∧ d.name = d₀.name := by
      intro i d hd
      rw [hpub, SosPub.setElem, List.getElem?_set] at hd
      split at hd
      case isTrue heq =>
        subst heq
        rw [if_pos (List.getElem?_eq_some_iff.mp hdata).1] at hd
        cases hd
        exact ⟨data, hdata, rfl, rfl⟩
      case isFalse => exact ⟨d, hd, rfl, rfl⟩
    have htable : ∀ n, sosPubSearch c'.pub n = sosPubSearch c.pub n := by
      intro n
      rw [hpub]
      rfl
    refine ⟨fun i d hd => ?_, fun d hd => ?_, fun d hd => ?_⟩
    · obtain ⟨d₀, hd₀, -, hn⟩ := hold i d hd
      rw [htable, hn]
      exact hc.search i d₀ hd₀
    · obtain ⟨i, hd⟩ := List.mem_iff_getElem?.mp hd
      obtain ⟨d₀, hd₀, -, hn⟩ := hold i d hd
      exact hn ▸ hc.name d₀ (List.mem_of_getElem? hd₀)
    · obtain ⟨i, hd⟩ := List.mem_iff_getElem?.mp hd
      obtain ⟨d₀, hd₀, hg, -⟩ := hold i d hd
      exact hg ▸ hc.guid d₀ (List.mem_of_getElem? hd₀)
  · obtain ⟨v, hnone, -, hpub, -⟩ := hnew
    have hdata : c'.pub.data =
        c.pub.data ++ [(c.pub.newData a.guid a.name a.val.type).renew v a.now] := by
      rw [hpub, SosPub.data_setElem_addElem]
    have hnewname : ((c.pub.newData a.guid a.name a.val.type).renew v a.now).name = a.name :=
      CString.take_of_length_le hname.le
    have htable : ∀ n, sosPubSearch c'.pub n =
        if n = a.name then some c.pub.elemCount else sosPubSearch c.pub n := by
      intro n
      rw [hpub]
      exact SosPub.sosPubSearch_addElem c.pub a.guid a.val.type hnone n
    refine ⟨fun i d hd => ?_, fun d hd => ?_, fun d hd => ?_⟩
    · rw [hdata, List.getElem?_append] at hd
      split at hd
      case isTrue =>
        have hfound := hc.search i d hd
        rw [htable, if_neg, hfound]
        intro heq
        rw [heq, hnone] at hfound
        cases hfound
      case isFalse hge =>
        obtain ⟨hi, hd⟩ := List.getElem?_eq_some_iff.mp hd
        rw [List.length_singleton] at hi
        have hpos : i = c.pub.elemCount := by
          change i = c.pub.data.length
          omega
        rw [← hd, List.getElem_singleton, hnewname, htable, if_pos rfl, hpos]
    · rw [hdata] at hd
      rcases List.mem_append.mp hd with hd | hd
      · exact hc.name d hd
      · rw [List.mem_singleton.mp hd, hnewname]
        exact hname
    · rw [hdata] at hd
      rcases List.mem_append.mp hd with hd | hd
      · exact hc.guid d hd
      · rw [List.mem_singleton.mp hd]
        exact hguid hnone

/-! ## The daemon -/

/-- The names that an ANNOUNCE puts into the table. -/
theorem mem_definedNames {pub : SosPub} {elems : List AnnounceElem} {entry : CString × ℕ} :
    entry ∈ definedNames (pub.resized elems.length).data elems ↔
      ∃ e, elems[entry.2]? = some e ∧ entry.1 = e.name.take (sosDefaultStringLen - 1) ∧
        (pub.elemOr entry.2).Redefined e := by
  obtain ⟨all, hlen, hall, hresized⟩ := SosPub.resized_eq elems.length pub
  have hdata : (pub.resized elems.length).data = all.take elems.length := by rw [hresized]
  have hget : ∀ i, i < elems.length → (all.take elems.length)[i]? = some (pub.elemOr i) := by
    intro i hi
    rw [List.getElem?_take_of_lt hi, ← hall i, List.getElem?_eq_getElem (by omega),
      Option.getD_some]
  obtain ⟨name, pos⟩ := entry
  rw [definedNames, hdata, List.mem_filterMap]
  constructor
  · rintro ⟨⟨⟨data, e⟩, i⟩, hmem, hentry⟩
    split at hentry
    case isTrue hnew =>
      cases hentry
      have hzip := List.mk_mem_zipIdx_iff_getElem?.mp hmem
      obtain ⟨hd, he⟩ := List.getElem?_zip_eq_some.mp hzip
      have hlt := (List.getElem?_eq_some_iff.mp he).1
      rw [hget i hlt] at hd
      cases hd
      exact ⟨e, he, rfl, hnew⟩
    case isFalse => cases hentry
  · rintro ⟨e, he, hname, hnew⟩
    have hlt := (List.getElem?_eq_some_iff.mp he).1
    have hzip : ((all.take elems.length).zip elems)[pos]? = some (pub.elemOr pos, e) :=
      List.getElem?_zip_eq_some.mpr ⟨hget pos hlt, he⟩
    refine ⟨((pub.elemOr pos, e), pos), List.mk_mem_zipIdx_iff_getElem?.mpr hzip, ?_⟩
    rw [if_pos hnew]
    exact congrArg (fun n => some (n, pos)) hname.symm

/-- A redefined element is marked. -/
theorem SosData.sync_define {data : SosData} {e : AnnounceElem} (h : data.Redefined e) :
    (data.define e).sync = .renew := by
  rw [SosData.define, if_pos h]

/-- A position has been announced. -/
def Definitions.Seen (s : Definitions) (pos : ℕ) : Prop := ∃ p ∈ s.applied, pos < p.elemCount

/-- **The invariant of a history.** -/
structure DefInv (s : Definitions) : Prop where
  client : s.client.pub.Indexed
  sent : ∀ p ∈ s.sent ++ s.applied, p.defs <+: s.client.pub.defs
  seen : ∀ (pos : ℕ) (data : SosData), s.client.pub.data[pos]? = some data → s.Seen pos →
    (s.daemon.elemOr pos).guid = data.guid ∧ (s.daemon.elemOr pos).name = data.name
  unseen : ∀ pos, ¬ s.Seen pos → (s.daemon.elemOr pos).guid = 0
  entries : ∀ entry ∈ s.daemon.nameTable,
    ∃ data, s.client.pub.data[entry.2]? = some data ∧ data.name = entry.1
  named : ∀ (pos : ℕ) (data : SosData), s.client.pub.data[pos]? = some data → s.Seen pos →
    (data.name, pos) ∈ s.daemon.nameTable

/-- An element of a pub is in every pub with more definitions. -/
theorem data_of_prefix {p q : SosPub} {pos : ℕ} {data : SosData} (h : p.defs <+: q.defs)
    (hdata : p.data[pos]? = some data) :
    ∃ data', q.data[pos]? = some data' ∧ data'.announce = data.announce := by
  have hp : p.defs[pos]? = some data.announce := by
    rw [SosPub.defs, List.getElem?_map, hdata, Option.map_some]
  have hlt := (List.getElem?_eq_some_iff.mp hp).1
  have hq : q.defs[pos]? = some data.announce := by
    rw [List.prefix_iff_eq_take.mp h, List.getElem?_take] at hp
    rw [if_pos hlt] at hp
    exact hp
  rw [SosPub.defs, List.getElem?_map] at hq
  exact Option.map_eq_some_iff.mp hq

/-- So is one of the larger pub at a position that the smaller one has. -/
theorem data_of_prefix_of_lt {p q : SosPub} {pos : ℕ} {data : SosData} (h : p.defs <+: q.defs)
    (hdata : q.data[pos]? = some data) (hlt : pos < p.elemCount) :
    ∃ data', p.data[pos]? = some data' ∧ data'.announce = data.announce := by
  have hp : p.data[pos]? = some p.data[pos] := List.getElem?_eq_getElem hlt
  obtain ⟨data', hdata', hsame⟩ := data_of_prefix h hp
  cases hdata.symm.trans hdata'
  exact ⟨p.data[pos], hp, hsame.symm⟩

namespace DefInv

variable {s s' : Definitions}

/-- **The daemon's table gives the client's index** of every name announced. -/
theorem search (h : DefInv s) {pos : ℕ} {data : SosData} (hdata : s.client.pub.data[pos]? = some data)
    (hseen : s.Seen pos) : sosPubSearch s.daemon data.name = some pos := by
  have hmem := h.named pos data hdata hseen
  cases hlookup : sosPubSearch s.daemon data.name with
  | none =>
      have hne := List.lookup_eq_none_iff.mp hlookup _ hmem
      simp at hne
  | some i =>
      obtain ⟨l₁, l₂, htable, -⟩ := List.lookup_eq_some_iff.mp hlookup
      obtain ⟨data', hdata', hname⟩ := h.entries (data.name, i) (by rw [htable]; simp)
      have hi := h.client.search i data' hdata'
      have hpos := h.client.search pos data hdata
      rw [hname] at hi
      exact hi.symm.trans hpos

/-- An element that a client has announced as it was. -/
theorem data_of_sent (h : DefInv s) {p : SosPub} (hp : p ∈ s.sent ++ s.applied) {pos : ℕ}
    {data : SosData} (hdata : p.data[pos]? = some data) :
    ∃ data', s.client.pub.data[pos]? = some data' ∧ data'.announce = data.announce :=
  data_of_prefix (h.sent p hp) hdata

/-- The guid and the name are part of what is announced. -/
theorem same_announce {data data' : SosData} (h : data.announce = data'.announce) :
    data.guid = data'.guid ∧ data.name = data'.name :=
  ⟨congrArg AnnounceElem.guid h, congrArg AnnounceElem.name h⟩

/-- **What an ANNOUNCE does to an element of its sender**: it has the definition,
and one that was not announced before is redefined. -/
theorem define (h : DefInv s) {p : SosPub} (hp : p ∈ s.sent) {pos : ℕ} {data : SosData}
    (hdata : p.data[pos]? = some data) :
    ((s.daemon.elemOr pos).define data.announce).SameDefinition data ∧
      data.name.take (sosDefaultStringLen - 1) = data.name ∧
      (¬ s.Seen pos → (s.daemon.elemOr pos).Redefined data.announce) := by
  obtain ⟨data', hdata', hsame⟩ := h.data_of_sent (List.mem_append_left _ hp) hdata
  obtain ⟨hguid, hname⟩ := same_announce hsame
  have hmem := List.mem_of_getElem? hdata'
  have hshort : data.name.take (sosDefaultStringLen - 1) = data.name := by
    have hlt := h.client.name data' hmem
    rw [hname] at hlt
    exact CString.take_of_length_le (by omega)
  have hnew : ¬ s.Seen pos → (s.daemon.elemOr pos).guid ≠ data.guid := by
    intro hunseen
    rw [h.unseen pos hunseen, ← hguid]
    exact (h.client.guid data' hmem).symm
  have hhas : ((s.daemon.elemOr pos).define data.announce).Has data.announce := by
    refine SosData.has_define fun heq => ?_
    by_cases hseen : s.Seen pos
    · rw [(h.seen pos data' hdata' hseen).2, hname]
      exact hshort.symm
    · exact absurd heq (hnew hseen)
  exact ⟨⟨hhas.guid, hhas.name.trans hshort, hhas.type, hhas.valMeta⟩, hshort,
    fun hunseen => .inl (hnew hunseen)⟩

/-- The positions behind an ANNOUNCE that arrives. -/
theorem elemOr_arrive (p pub : SosPub) (pos : ℕ) :
    (sosAnnounceFromBuffer pub p.announceMsg).elemOr pos =
      match p.data[pos]? with
      | some data => (pub.elemOr pos).define data.announce
      | none => pub.elemOr pos := by
  rw [elemOr_announce]
  have helems : p.announceMsg.elems[pos]? = p.data[pos]?.map SosData.announce := List.getElem?_map ..
  rw [helems]
  cases p.data[pos]? <;> rfl

/-- **An ANNOUNCE that arrives** keeps the invariant. -/
theorem arrive (h : DefInv s) (hstep : s.arrive = some s') : DefInv s' := by
  unfold Definitions.arrive at hstep
  split at hstep
  case h_1 => cases hstep
  case h_2 p rest hsent =>
    cases hstep
    have hp : p ∈ s.sent := by rw [hsent]; exact List.mem_cons_self
    have hprefix := h.sent p (List.mem_append_left _ hp)
    have hcases : ∀ pos, Definitions.Seen { s with
          sent := rest, applied := s.applied ++ [p],
          daemon := sosAnnounceFromBuffer s.daemon p.announceMsg } pos →
        s.Seen pos ∨ pos < p.elemCount := by
      rintro pos ⟨q, hq, hlt⟩
      rcases List.mem_append.mp hq with hq | hq
      · exact .inl ⟨q, hq, hlt⟩
      · rw [List.mem_singleton.mp hq] at hlt
        exact .inr hlt
    refine ⟨h.client, fun q hq => ?_, fun pos data hdata hseen => ?_, fun pos hunseen => ?_,
      fun entry hentry => ?_, fun pos data hdata hseen => ?_⟩
    · refine h.sent q ?_
      rw [hsent]
      simp only [List.mem_append, List.mem_cons, List.not_mem_nil, or_false] at hq ⊢
      tauto
    · change ((sosAnnounceFromBuffer s.daemon p.announceMsg).elemOr pos).guid = _ ∧ _
      rw [elemOr_arrive]
      cases hpdata : p.data[pos]? with
      | some d =>
          obtain ⟨data', hdata', hsame⟩ := data_of_prefix hprefix hpdata
          cases hdata.symm.trans hdata'
          obtain ⟨hguid, hname⟩ := same_announce hsame
          obtain ⟨hdef, -, -⟩ := h.define hp hpdata
          exact ⟨hdef.guid.trans hguid.symm, hdef.name.trans hname.symm⟩
      | none =>
          have hge := List.getElem?_eq_none_iff.mp hpdata
          have hold := (hcases pos hseen).resolve_right (not_lt.mpr hge)
          exact h.seen pos data hdata hold
    · have hge : p.data[pos]? = none := by
        refine List.getElem?_eq_none (not_lt.mp fun hlt => hunseen ?_)
        exact ⟨p, List.mem_append_right _ (List.mem_singleton_self p), hlt⟩
      change ((sosAnnounceFromBuffer s.daemon p.announceMsg).elemOr pos).guid = 0
      rw [elemOr_arrive, hge]
      exact h.unseen pos fun ⟨q, hq, hlt⟩ => hunseen ⟨q, List.mem_append_left _ hq, hlt⟩
    · rcases List.mem_append.mp hentry with hold | hnew
      · exact h.entries entry hold
      · obtain ⟨e, he, hname, -⟩ := mem_definedNames.mp hnew
        have he' : (p.data.map SosData.announce)[entry.2]? = some e := he
        rw [List.getElem?_map] at he'
        obtain ⟨d, hd, rfl⟩ := Option.map_eq_some_iff.mp he'
        obtain ⟨data', hdata', hsame⟩ := data_of_prefix hprefix hd
        obtain ⟨-, hshort, -⟩ := h.define hp hd
        exact ⟨data', hdata', (same_announce hsame).2.trans (hshort.symm.trans hname.symm)⟩
    · by_cases hold : s.Seen pos
      · exact List.mem_append_left _ (h.named pos data hdata hold)
      · have hlt := (hcases pos hseen).resolve_left hold
        obtain ⟨d, hd, hsame⟩ := data_of_prefix_of_lt hprefix hdata hlt
        obtain ⟨-, hshort, hnew⟩ := h.define hp hd
        refine List.mem_append_right _ (mem_definedNames.mpr ⟨d.announce, ?_, ?_, hnew hold⟩)
        · change (p.data.map SosData.announce)[pos]? = _
          rw [List.getElem?_map, hd, Option.map_some]
        · rw [← (same_announce hsame).2]
          exact hshort.symm

/-- **What an ANNOUNCE that arrives leaves** in the daemon's pub. -/
theorem announced (h : DefInv s) {p : SosPub} {rest : List SosPub} (hsent : s.sent = p :: rest) :
    Announced s p (sosAnnounceFromBuffer s.daemon p.announceMsg) := by
  have hp : p ∈ s.sent := by rw [hsent]; exact List.mem_cons_self
  have hcount : (sosAnnounceFromBuffer s.daemon p.announceMsg).data.length = p.data.length := by
    rw [length_data_announce]
    exact List.length_map ..
  have hnext : DefInv { s with
      sent := rest, applied := s.applied ++ [p],
      daemon := sosAnnounceFromBuffer s.daemon p.announceMsg } := by
    refine h.arrive ?_
    rw [Definitions.arrive, hsent]
  have hget : ∀ pos, pos < p.data.length →
      (sosAnnounceFromBuffer s.daemon p.announceMsg).data[pos]? =
        some ((sosAnnounceFromBuffer s.daemon p.announceMsg).elemOr pos) :=
    fun pos hlt => SosPub.getElem?_data (hcount ▸ hlt)
  refine ⟨hcount, Nat.le_add_right _ _, fun pos data hdata => ?_, fun pos data hdata => ?_,
    fun pos hlt hfirst => ?_⟩
  · refine ⟨_, hget pos (List.getElem?_eq_some_iff.mp hdata).1, ?_⟩
    rw [elemOr_arrive, hdata]
    exact (h.define hp hdata).1
  · obtain ⟨data', hdata', hsame⟩ := h.data_of_sent (List.mem_append_left _ hp) hdata
    rw [← (same_announce hsame).2]
    refine ⟨hnext.search hdata' ?_, h.client.search pos data' hdata'⟩
    exact ⟨p, List.mem_append_right _ (List.mem_singleton_self p),
      (List.getElem?_eq_some_iff.mp hdata).1⟩
  · refine ⟨_, hget pos hlt, ?_⟩
    have hdata : p.data[pos]? = some p.data[pos] := List.getElem?_eq_getElem hlt
    rw [elemOr_arrive, hdata]
    refine SosData.sync_define ((h.define hp hdata).2.2 ?_)
    rintro ⟨q, hq, hlt'⟩
    exact absurd hlt' (not_lt.mpr (hfirst q hq))

/-- A PUBLISH of any content keeps the invariant. -/
theorem publish (h : DefInv s) {m : PublishMsg} {pub : SosPub}
    (hpub : sosPublishFromBuffer s.daemon m = some pub) : DefInv { s with daemon := pub } := by
  have hrep := receiveElems_republished hpub
  have hrest := congrArg SosPub.nameTable hrep.rest
  have htable : pub.nameTable = s.daemon.nameTable := hrest
  refine ⟨h.client, h.sent, fun pos data hdata hseen => ?_, fun pos hunseen => ?_,
    fun entry hentry => ?_, fun pos data hdata hseen => ?_⟩
  · obtain ⟨hguid, hname⟩ := h.seen pos data hdata hseen
    exact ⟨(hrep.elem pos).guid.trans hguid, (hrep.elem pos).name.trans hname⟩
  · exact (hrep.elem pos).guid.trans (h.unseen pos hunseen)
  · exact h.entries entry (htable ▸ hentry)
  · exact htable ▸ h.named pos data hdata hseen

/-- A pack of the client keeps it. -/
theorem pack (h : DefInv s) {a : PackArgs} {c : ClientPub}
    (hname : a.name.length < sosDefaultStringLen)
    (hguid : sosPubSearch s.client.pub a.name = none → a.guid ≠ 0)
    (hc : s.client.pack a = some c) : DefInv { s with client := c } := by
  have hprefix := ClientPub.pack_defs hc
  have hseenlt : ∀ pos, s.Seen pos → pos < s.client.pub.elemCount := by
    rintro pos ⟨p, hp, hlt⟩
    have hle := (h.sent p (List.mem_append_right _ hp)).length_le
    rw [SosPub.defs, SosPub.defs, List.length_map, List.length_map] at hle
    exact lt_of_lt_of_le hlt hle
  refine ⟨ClientPub.pack_indexed h.client hname hguid hc, fun p hp => (h.sent p hp).trans hprefix,
    fun pos data hdata hseen => ?_, h.unseen, fun entry hentry => ?_,
    fun pos data hdata hseen => ?_⟩
  · obtain ⟨d, hd, hsame⟩ := data_of_prefix_of_lt hprefix hdata (hseenlt pos hseen)
    obtain ⟨hg, hn⟩ := same_announce hsame
    obtain ⟨hguid, hname⟩ := h.seen pos d hd hseen
    exact ⟨hguid.trans hg, hname.trans hn⟩
  · obtain ⟨d, hd, hn⟩ := h.entries entry hentry
    obtain ⟨d', hd', hsame⟩ := data_of_prefix hprefix hd
    exact ⟨d', hd', (same_announce hsame).2.trans hn⟩
  · obtain ⟨d, hd, hsame⟩ := data_of_prefix_of_lt hprefix hdata (hseenlt pos hseen)
    rw [← (same_announce hsame).2]
    exact h.named pos d hd hseen

/-- **Every event keeps the invariant.** -/
theorem step {e : DefEvent} (h : DefInv s) (hok : NamesElem s e) (hstep : defStep s e = some s') :
    DefInv s' := by
  cases e with
  | pack a =>
      obtain ⟨c, hc, rfl⟩ := Option.map_eq_some_iff.mp hstep
      exact h.pack hok.1 hok.2 hc
  | announce =>
      cases hstep
      have hdefs : s.client.pub.afterAnnounce.defs = s.client.pub.defs := rfl
      refine ⟨⟨h.client.search, h.client.name, h.client.guid⟩, fun p hp => ?_, h.seen, h.unseen,
        h.entries, h.named⟩
      change p.defs <+: s.client.pub.afterAnnounce.defs
      rw [hdefs]
      simp only [List.mem_append, List.mem_singleton] at hp
      rcases hp with (hp | rfl) | hp
      · exact h.sent p (List.mem_append_left _ hp)
      · exact List.prefix_rfl
      · exact h.sent p (List.mem_append_right _ hp)
  | arrive => exact h.arrive hstep
  | publish m =>
      obtain ⟨pub, hpub, rfl⟩ := Option.map_eq_some_iff.mp hstep
      exact h.publish hpub

/-- It holds when nothing has happened yet. -/
theorem start (config config' : SosConfig) (guid guid' : SosGuid) (title title' : CString)
    (nature nature' : CInt) (newSize newSize' : ℕ) :
    DefInv (.start config config' guid guid' title title' nature nature' newSize newSize') where
  client := indexed_init config guid title nature newSize
  sent p hp := (by cases hp)
  seen pos data hdata := (by cases hdata)
  unseen pos _ := by
    have hblank : (sosPubInitSized config' guid' title' nature' newSize').elemOr pos = .blank := by
      change ([] ++ List.replicate newSize' SosData.blank)[pos]?.getD .blank = _
      rw [List.nil_append, List.getElem?_replicate]
      split <;> rfl
    exact congrArg SosData.guid hblank
  entries entry hentry := (by cases hentry)
  named pos data hdata := (by cases hdata)

end DefInv

/-- **The definitions of every ANNOUNCE arrive**: behind it the daemon's pub has
the elements the client's had when it was sent, finds them under the client's
indices, and has marked those that it had not seen. -/
theorem definitions_announced {config config' : SosConfig} {guid guid' : SosGuid}
    {title title' : CString} {nature nature' : CInt} {newSize newSize' : ℕ} {events : List DefEvent}
    {s : Definitions}
    (hok : Along defStep NamesElem
      (.start config config' guid guid' title title' nature nature' newSize newSize') events)
    (hrun : run defStep
      (.start config config' guid guid' title title' nature nature' newSize newSize') events = some s)
    {p : SosPub} {rest : List SosPub} (hsent : s.sent = p :: rest) :
    ∃ s', defStep s .arrive = some s' ∧ s'.sent = rest ∧ Announced s p s'.daemon := by
  have hinv : DefInv s := run_invariant (fun _ _ _ h => h.step) (DefInv.start ..) hok hrun
  refine ⟨{ s with
    sent := rest, applied := s.applied ++ [p],
    daemon := sosAnnounceFromBuffer s.daemon p.announceMsg }, ?_, rfl, hinv.announced hsent⟩
  rw [defStep, Definitions.arrive, hsent]

instance (s : Definitions) (e : DefEvent) : Decidable (NamesElem s e) := by
  cases e <;> unfold NamesElem <;> infer_instance

/-- A value of another element is published between two ANNOUNCEs. -/
def defEvents : List DefEvent :=
  [.pack ⟨⟨[120], by decide⟩, .int 1, 0, 9, 0⟩, .announce, .arrive,
    .publish ⟨5, 0, [⟨0, 0, 0, 4, 7, 3, .int 1⟩]⟩,
    .pack ⟨⟨[121], by decide⟩, .long 2, 0, 10, 0⟩, .announce]

theorem definitions_announced_twice :
    ∃ s p s', run defStep (.start plainConfig plainConfig 5 5 .empty .empty 0 0 2 2) defEvents = some s ∧
      s.sent = [p] ∧ defStep s .arrive = some s' ∧ Announced s p s'.daemon := by
  have hrun : ((run defStep (.start plainConfig plainConfig 5 5 .empty .empty 0 0 2 2)
      defEvents).map fun s => s.sent.length) = some 1 := by decide
  obtain ⟨s, hs, hlen⟩ := Option.map_eq_some_iff.mp hrun
  obtain ⟨p, hsent⟩ := List.length_eq_one_iff.mp hlen
  obtain ⟨s', hs', -, hannounced⟩ := definitions_announced (by decide) hs hsent
  exact ⟨s, p, s', hs, hsent, hs', hannounced⟩

end SosFlow
