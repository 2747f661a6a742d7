import SosFlow.Guid.Uid
import SosFlow.Lib.Ownership
import SosFlow.Lib.Trace

/-!
# Guids across the cluster

Every guid comes from one of three places: a daemon takes one from its own
pool, a client takes one from the block it was given, or a client takes the
last of its block and only returns it once the daemon has answered with the
next block. `step` is one of these in one daemon or client, while the
others stand still; between a request and its answer anything may happen.

The invariant is that of a ledger (`Ledger.Sound`): the daemons' pools, the
clients' blocks and the values in the hands of waiting clients never
overlap, and hold none of the values that were returned.
-/

namespace SosFlow

open Ownership

/-- **A client on its way to its guids.** -/
inductive Client (n : ℕ) where
  /-- It has not called `SOS_init`. -/
  | absent
  /-- Its registration is on its way to the daemon. -/
  | registering (d : Fin n)
  /-- The block for it is on its way back. -/
  | granted (d : Fin n) (blockFrom blockTo : SosGuid)
  /-- It has a pool. -/
  | ready (d : Fin n) (pool : SosUid)
  /-- It has taken the last value, and its GUID_BLOCK request is on its way. -/
  | waiting (d : Fin n) (serial : SosGuid)
  /-- The next block is on its way back. -/
  | answered (d : Fin n) (serial blockFrom blockTo : SosGuid)

/-- **The cluster**: the daemons' pools, the clients, and every guid that was
returned, with the daemon it came from. -/
structure Cluster (n : ℕ) where
  pools : Fin n → SosUid
  clients : ℕ → Client n
  returned : List (Fin n × SosGuid)

/-- The daemons after `SOSD_init`, and no client yet. -/
def Cluster.init (n : ℕ) : Cluster n where
  pools d := sosdInitGuid (BitVec.ofNat 32 n) (BitVec.ofNat 32 d)
  clients _ := .absent
  returned := []

/-- **What can happen next.** -/
inductive ClusterAction (n : ℕ) where
  /-- The daemon calls `SOS_uid_next`, for a pub or a sensitivity entry. -/
  | daemonNext (d : Fin n)
  /-- A client calls `SOS_init`. -/
  | connect (c : ℕ) (d : Fin n)
  /-- The client's daemon handles its registration or its GUID_BLOCK request. -/
  | serve (c : ℕ)
  /-- The answer reaches the client. -/
  | receive (c : ℕ)
  /-- The client calls `SOS_uid_next`. -/
  | clientNext (c : ℕ)

variable {n : ℕ}

namespace Cluster

/-- The client with another state. -/
def setClient (s : Cluster n) (c : ℕ) (client : Client n) : Cluster n :=
  { s with clients := Function.update s.clients c client }

/-- The daemon with another pool. -/
def setPool (s : Cluster n) (d : Fin n) (pool : SosUid) : Cluster n :=
  { s with pools := Function.update s.pools d pool }

/-- A guid returned to its caller. -/
def record (s : Cluster n) (d : Fin n) (serial : SosGuid) : Cluster n :=
  { s with returned := s.returned ++ [(d, serial)] }

/-- **One step of the cluster**, with blocks of a size. -/
def step (blockSize : SosGuid) (s : Cluster n) : ClusterAction n → Option (Cluster n)
  | .daemonNext d =>
      (sosUidNextDaemon (s.pools d)).map fun (serial, pool) => (s.setPool d pool).record d serial
  | .connect c d => match s.clients c with
    | .absent => some (s.setClient c (.registering d))
    | _ => none
  | .serve c => match s.clients c with
    | .registering d =>
        let (block, pool) := sosdClaimGuidBlock (s.pools d) blockSize
        some ((s.setPool d pool).setClient c (.granted d block.1 block.2))
    | .waiting d serial =>
        let (block, pool) := sosdClaimGuidBlock (s.pools d) blockSize
        some ((s.setPool d pool).setClient c (.answered d serial block.1 block.2))
    | _ => none
  | .receive c => match s.clients c with
    | .granted d blockFrom blockTo =>
        some (s.setClient c (.ready d (sosUidInit blockFrom blockTo)))
    | .answered d serial blockFrom blockTo =>
        some ((s.setClient c (.ready d ⟨blockFrom, blockTo⟩)).record d serial)
    | _ => none
  | .clientNext c => match s.clients c with
    | .ready d pool => match sosUidNextClient pool with
      | .done serial pool => some ((s.setClient c (.ready d pool)).record d serial)
      | .refresh serial => some (s.setClient c (.waiting d serial))
    | _ => none

/-- **The step exhausts no pool**: the claim it makes, if any, does not take
its failure branch. -/
def Unexhausted (blockSize : SosGuid) (s : Cluster n) : ClusterAction n → Prop
  | .serve c => match s.clients c with
    | .registering d => claimFails (s.pools d) blockSize = false
    | .waiting d _ => claimFails (s.pools d) blockSize = false
    | _ => True
  | _ => True

/-! ## The ledger -/

/-- The guids of a daemon's range. -/
def InRange (d : Fin n) (g : ℕ) : Prop :=
  0 < g ∧ d * rangeSize n ≤ g ∧ g < d * rangeSize n + rangeSize n

/-- The guids from one to another, of a daemon. -/
def Between (d : Fin n) (low high : SosGuid) (x : Fin n × ℕ) : Prop :=
  x.1 = d ∧ low.toNat ≤ x.2 ∧ x.2 ≤ high.toNat

end Cluster

/-- What a client may still return, or is about to. -/
def Client.Holds : Client n → Fin n × ℕ → Prop
  | .absent, _ => False
  | .registering _, _ => False
  | .granted d blockFrom blockTo, x => Cluster.Between d blockFrom blockTo x
  | .ready d pool, x => Cluster.Between d pool.next pool.last x
  | .waiting d serial, x => x = (d, serial.toNat)
  | .answered d serial blockFrom blockTo, x =>
      x = (d, serial.toNat) ∨ Cluster.Between d blockFrom blockTo x

/-- What is true of a client by itself. -/
def Client.WellFormed : Client n → Prop
  | .granted _ blockFrom blockTo =>
      0 < blockFrom.toNat ∧ blockFrom.toNat ≤ blockTo.toNat ∧ blockTo.toNat ≤ llongMax
  | .ready _ pool => pool.Bounded ∧ pool.next.toNat ≤ pool.last.toNat
  | .answered _ serial blockFrom blockTo => serial.toNat < blockFrom.toNat ∧
      0 < blockFrom.toNat ∧ blockFrom.toNat ≤ blockTo.toNat ∧ blockTo.toNat ≤ llongMax
  | _ => True

namespace Cluster

/-- The ledger of the daemons and the clients. -/
def ledger (s : Cluster n) : Ledger (Fin n ⊕ ℕ) (Fin n × ℕ) where
  owns
    | .inl d => {x | Between d (s.pools d).next (s.pools d).last x}
    | .inr c => {x | (s.clients c).Holds x}
  used := s.returned.map fun e => (e.1, e.2.toNat)

/-- **The invariant**: the ledger is in order, and every pool by itself is. -/
structure Inv (s : Cluster n) : Prop where
  sound : s.ledger.Sound {x | InRange x.1 x.2}
  bounded : ∀ d, (s.pools d).Bounded
  last_eq : ∀ d : Fin n, (s.pools d).last.toNat + 1 = d * rangeSize n + rangeSize n
  client : ∀ c, (s.clients c).WellFormed

/-! ## What a change touches -/

variable {s : Cluster n} {c c' : ℕ} {d d' : Fin n} {client : Client n} {pool : SosUid}
  {serial : SosGuid}

@[simp] theorem setClient_pools : (s.setClient c client).pools = s.pools := rfl

@[simp] theorem setClient_returned : (s.setClient c client).returned = s.returned := rfl

@[simp] theorem setClient_self : (s.setClient c client).clients c = client :=
  Function.update_self ..

theorem setClient_of_ne (h : c' ≠ c) : (s.setClient c client).clients c' = s.clients c' :=
  Function.update_of_ne h ..

@[simp] theorem setPool_clients : (s.setPool d pool).clients = s.clients := rfl

@[simp] theorem setPool_returned : (s.setPool d pool).returned = s.returned := rfl

@[simp] theorem setPool_self : (s.setPool d pool).pools d = pool :=
  Function.update_self ..

theorem setPool_of_ne (h : d' ≠ d) : (s.setPool d pool).pools d' = s.pools d' :=
  Function.update_of_ne h ..

@[simp] theorem record_pools : (s.record d serial).pools = s.pools := rfl

@[simp] theorem record_clients : (s.record d serial).clients = s.clients := rfl

/-- Every client is well formed when the one that changed is. -/
theorem wellFormed_setClient (hall : ∀ c, (s.clients c).WellFormed) (h : client.WellFormed) :
    ∀ c', ((s.setClient c client).clients c').WellFormed := by
  intro c'
  by_cases hc : c' = c
  · subst hc
    rwa [setClient_self]
  · rw [setClient_of_ne hc]
    exact hall c'

/-! ## One step -/

/-- **A daemon takes a guid of its own**: the first of its pool. -/
theorem inv_daemonNext (h : s.Inv) (hnext : sosUidNextDaemon (s.pools d) = some (serial, pool)) :
    ((s.setPool d pool).record d serial).Inv := by
  obtain ⟨rfl, hlt, hcursor, hlast⟩ := SosUid.sosUidNextDaemon_some (h.bounded d) hnext
  have hbounded := h.bounded d
  refine ⟨?_, ?_, ?_, h.client⟩
  · refine h.sound.use (i := .inl d) (x := (d, (s.pools d).next.toNat)) ⟨rfl, le_rfl, hlt.le⟩
      ?_ ?_ (List.map_append ..)
    · rintro (d' | c) y hy
      · by_cases hd : d' = d
        · subst hd
          obtain ⟨hfst, hlow, hhigh⟩ := hy
          simp only [record_pools, setPool_self] at hlow hhigh
          exact ⟨hfst, by omega, by rw [← hlast]; exact hhigh⟩
        · simpa only [ledger, record_pools, setPool_of_ne hd] using hy
      · exact hy
    · rintro ⟨_, hlow, _⟩
      simp only [record_pools, setPool_self] at hlow
      omega
  · intro d'
    by_cases hd : d' = d
    · subst hd
      obtain ⟨hpos, _, hle⟩ := hbounded
      simp only [record_pools, setPool_self]
      exact ⟨by omega, by rw [hlast]; omega, by rw [hlast]; exact hle⟩
    · simpa only [record_pools, setPool_of_ne hd] using h.bounded d'
  · intro d'
    by_cases hd : d' = d
    · subst hd
      simpa only [record_pools, setPool_self, hlast] using h.last_eq d'
    · simpa only [record_pools, setPool_of_ne hd] using h.last_eq d'

/-- A client that changes by itself, and holds nothing new. -/
theorem inv_setClient (h : s.Inv) (hholds : ∀ x, client.Holds x → (s.clients c).Holds x)
    (hwell : client.WellFormed) : (s.setClient c client).Inv := by
  refine ⟨h.sound.mono ?_ rfl, h.bounded, h.last_eq, wellFormed_setClient h.client hwell⟩
  rintro (d | c') x hx
  · exact hx
  · by_cases hc : c' = c
    · subst hc
      apply hholds
      simpa only [ledger, Set.mem_ofPred_eq, setClient_self] using hx
    · simpa only [ledger, setClient_of_ne hc] using hx

/-- **A client returns a guid** it held, and holds it no more. -/
theorem inv_return (h : s.Inv) (hheld : (s.clients c).Holds (d, serial.toNat))
    (hholds : ∀ x, client.Holds x → (s.clients c).Holds x)
    (hgone : ¬ client.Holds (d, serial.toNat)) (hwell : client.WellFormed) :
    ((s.setClient c client).record d serial).Inv := by
  have hafter := inv_setClient h hholds hwell
  refine ⟨?_, hafter.bounded, hafter.last_eq, hafter.client⟩
  refine h.sound.use (i := .inr c) (x := (d, serial.toNat)) hheld ?_ ?_ (List.map_append ..)
  · rintro (d' | c') x hx
    · exact hx
    · by_cases hc : c' = c
      · subst hc
        apply hholds
        simpa only [ledger, Set.mem_ofPred_eq, record_clients, setClient_self] using hx
      · simpa only [ledger, record_clients, setClient_of_ne hc] using hx
  · intro hx
    apply hgone
    simpa only [ledger, Set.mem_ofPred_eq, record_clients, setClient_self] using hx

/-- **A daemon gives a client a block**: the front of its pool. -/
theorem inv_claim {blockSize : SosGuid} {block : SosGuid × SosGuid} (h : s.Inv)
    (hsize : blockSize.toNat ≤ intMax)
    (hclaim : claimFails (s.pools d) blockSize = false)
    (hblock : sosdClaimGuidBlock (s.pools d) blockSize = (block, pool))
    (hholds : ∀ x, client.Holds x → (s.clients c).Holds x ∨ Between d block.1 block.2 x)
    (hwell : block.1 = (s.pools d).next → 0 < block.1.toNat →
      block.1.toNat ≤ block.2.toNat → block.2.toNat ≤ llongMax → client.WellFormed) :
    ((s.setPool d pool).setClient c client).Inv := by
  have hbounded := h.bounded d
  obtain ⟨blockTo', pool', heq, hto, hin, hcursor, hlast⟩ :=
    SosUid.sosdClaimGuidBlock_eq hbounded hsize hclaim
  rw [heq] at hblock
  obtain ⟨rfl, rfl⟩ := Prod.mk.inj hblock
  obtain ⟨hpos, _, hle⟩ := hbounded
  refine ⟨?_, ?_, ?_, wellFormed_setClient h.client
    (hwell rfl hpos (by simp only; omega) (hin.trans hle))⟩
  · refine h.sound.pass (i := .inl d) (j := .inr c) ?_ ?_ ?_ rfl
    · rintro x ⟨hfst, hlow, hhigh⟩
      simp only [setClient_pools, setPool_self, hcursor] at hlow hhigh
      exact ⟨hfst, by omega, by rw [← hlast]; exact hhigh⟩
    · intro x hx
      have hx : client.Holds x := by
        simpa only [ledger, Set.mem_ofPred_eq, setClient_self] using hx
      refine (hholds x hx).imp id fun hgiven => ⟨⟨hgiven.1, hgiven.2.1, ?_⟩, ?_⟩
      · exact hgiven.2.2.trans hin
      · rintro ⟨_, hlow, _⟩
        simp only [setClient_pools, setPool_self] at hlow
        have hhigh : x.2 ≤ blockTo'.toNat := hgiven.2.2
        omega
    · rintro (d' | c') hd hc x hx
      · have hne : d' ≠ d := fun heq => hd (congrArg Sum.inl heq)
        simpa only [ledger, setClient_pools, setPool_of_ne hne] using hx
      · have hne : c' ≠ c := fun heq => hc (congrArg Sum.inr heq)
        simpa only [ledger, setClient_of_ne hne, setPool_clients] using hx
  · intro d'
    by_cases hd : d' = d
    · subst hd
      simp only [setClient_pools, setPool_self]
      exact ⟨by omega, by rw [hlast]; omega, by rw [hlast]; exact hle⟩
    · simpa only [setClient_pools, setPool_of_ne hd] using h.bounded d'
  · intro d'
    by_cases hd : d' = d
    · subst hd
      simpa only [setClient_pools, setPool_self, hlast] using h.last_eq d'
    · simpa only [setClient_pools, setPool_of_ne hd] using h.last_eq d'

/-- What a client holds is below the cursor of its daemon's pool, which is above all that was
handed out. -/
theorem lt_next_of_holds (h : s.Inv) (hheld : (s.clients c).Holds (d, serial.toNat)) :
    serial.toNat < (s.pools d).next.toNat := by
  by_contra hge
  have hrange := h.sound.owns_mem (.inr c) _ hheld
  have hlast := h.last_eq d
  have hhigh := hrange.2.2
  simp only at hhigh
  have hpool : (d, serial.toNat) ∈ s.ledger.owns (.inl d) :=
    ⟨rfl, by simp only; omega, by simp only; omega⟩
  have hsame := h.sound.unique (.inr c) (.inl d) _ hheld hpool
  cases hsame

/-- A client in want of a block is served: a new one, or one with a guid in hand. -/
theorem inv_serve {blockSize : SosGuid} {s' : Cluster n} (hsize : blockSize.toNat ≤ intMax)
    (h : s.Inv) (hok : s.Unexhausted blockSize (.serve c))
    (hstep : step blockSize s (.serve c) = some s') : s'.Inv := by
  cases hclient : s.clients c with
  | registering d =>
    simp only [Unexhausted, hclient] at hok
    rcases hblock : sosdClaimGuidBlock (s.pools d) blockSize with ⟨block, pool⟩
    simp only [step, hclient, hblock] at hstep
    obtain rfl := Option.some.inj hstep
    exact inv_claim h hsize hok hblock (fun _ hx => .inr hx)
      fun _ hpos hle hmax => ⟨hpos, hle, hmax⟩
  | waiting d serial =>
    simp only [Unexhausted, hclient] at hok
    rcases hblock : sosdClaimGuidBlock (s.pools d) blockSize with ⟨block, pool⟩
    simp only [step, hclient, hblock] at hstep
    obtain rfl := Option.some.inj hstep
    have hheld : (s.clients c).Holds (d, serial.toNat) := by
      rw [hclient]
      exact rfl
    refine inv_claim h hsize hok hblock (fun _ hx => hx.imp_left fun heq => ?_)
      fun heq hpos hle hmax => ⟨by rw [heq]; exact lt_next_of_holds h hheld, hpos, hle, hmax⟩
    rw [heq]
    exact hheld
  | _ =>
    simp only [step, hclient] at hstep
    cases hstep

/-- **A client receives its block**, and returns the guid it had in hand, if any. -/
theorem inv_receive {blockSize : SosGuid} {s' : Cluster n} (h : s.Inv)
    (hstep : step blockSize s (.receive c) = some s') : s'.Inv := by
  simp only [step] at hstep
  have hwell := h.client c
  split at hstep
  case h_1 d blockFrom blockTo hclient =>
    obtain rfl := Option.some.inj hstep
    rw [hclient] at hwell
    obtain ⟨hpos, hle, hmax⟩ := hwell
    have hpool := sosUidInit_of_pos hpos hmax
    refine inv_setClient h (fun x hx => ?_) ?_
    · rw [hclient]
      rw [hpool] at hx
      exact hx
    · rw [hpool]
      exact ⟨⟨hpos, hle.trans (Nat.le_succ _), hmax⟩, hle⟩
  case h_2 d serial blockFrom blockTo hclient =>
    obtain rfl := Option.some.inj hstep
    rw [hclient] at hwell
    obtain ⟨hlt, hpos, hle, hmax⟩ := hwell
    refine inv_return h ?_ (fun x hx => ?_) ?_ ⟨⟨hpos, hle.trans (Nat.le_succ _), hmax⟩, hle⟩
    · rw [hclient]
      exact .inl rfl
    · rw [hclient]
      exact .inr hx
    · rintro ⟨_, hlow, _⟩
      exact absurd hlow (Nat.not_le.mpr hlt)
  case h_3 => cases hstep

/-- **A client takes a guid** of its block, and keeps the last one in hand until it has a new
block. -/
theorem inv_clientNext {blockSize : SosGuid} {s' : Cluster n} (h : s.Inv)
    (hstep : step blockSize s (.clientNext c) = some s') : s'.Inv := by
  simp only [step] at hstep
  have hwell := h.client c
  split at hstep
  case h_1 d pool hclient =>
    rw [hclient] at hwell
    obtain ⟨hbounded, hne⟩ := hwell
    have hadvance := SosUid.toNat_advance hbounded
    have hheld : (s.clients c).Holds (d, pool.next.toNat) := by
      rw [hclient]
      exact ⟨rfl, le_rfl, hne⟩
    rcases SosUid.sosUidNextClient_cases hbounded hne with ⟨hlt, hdone⟩ | ⟨heq, hrefresh⟩
    · simp only [hdone] at hstep
      obtain rfl := Option.some.inj hstep
      refine inv_return h hheld (fun x hx => ?_) ?_ ⟨⟨?_, ?_, hbounded.last_le⟩, ?_⟩
      · obtain ⟨hfst, hlow, hhigh⟩ := hx
        rw [hclient]
        exact ⟨hfst, by omega, hhigh⟩
      · rintro ⟨_, hlow, _⟩
        simp only at hlow
        omega
      all_goals
        have hlast : pool.advance.last = pool.last := rfl
        rw [hadvance]
        try rw [hlast]
        omega
    · simp only [hrefresh] at hstep
      obtain rfl := Option.some.inj hstep
      refine inv_setClient h (fun x hx => ?_) trivial
      rw [hx]
      exact hheld
  case h_2 => cases hstep

/-- **Every step that exhausts no pool preserves the invariant.** -/
theorem inv_step {blockSize : SosGuid} {s' : Cluster n} {a : ClusterAction n}
    (hsize : blockSize.toNat ≤ intMax) (h : s.Inv) (hok : s.Unexhausted blockSize a)
    (hstep : step blockSize s a = some s') : s'.Inv := by
  cases a with
  | daemonNext d =>
      obtain ⟨⟨serial, pool⟩, hnext, rfl⟩ := Option.map_eq_some_iff.mp hstep
      exact inv_daemonNext h hnext
  | connect c d =>
      simp only [step] at hstep
      split at hstep
      case h_1 hclient =>
        obtain rfl := Option.some.inj hstep
        exact inv_setClient h (fun _ hx => hx.elim) trivial
      case h_2 => cases hstep
  | serve c => exact inv_serve hsize h hok hstep
  | receive c => exact inv_receive h hstep
  | clientNext c => exact inv_clientNext h hstep

/-! ## The cluster's guids -/

/-- The daemons start with their ranges, and nobody else holds anything. -/
theorem inv_init (hn : n ≤ intMax) : (init n).Inv := by
  have hpool : ∀ d : Fin n, _ := fun d => sosdInitGuid_eq hn d.isLt
  refine ⟨⟨?_, ?_, ?_, List.nodup_nil, ?_⟩, ?_, ?_, fun _ => trivial⟩
  · rintro (d | c) x hx
    · obtain ⟨rfl, hlow, hhigh⟩ := hx
      obtain ⟨hnext, hlast⟩ := hpool x.1
      change (sosdInitGuid _ _).next.toNat ≤ _ at hlow
      change _ ≤ (sosdInitGuid _ _).last.toNat at hhigh
      exact ⟨by omega, by omega, by omega⟩
    · exact hx.elim
  · rintro (d | c) (d' | c') x hx hx'
    · obtain rfl : d = d' := hx.1.symm.trans hx'.1
      rfl
    · exact hx'.elim
    · exact hx.elim
    · exact hx.elim
  · intro x hx
    cases hx
  · intro x hx
    cases hx
  · intro d
    obtain ⟨hnext, hlast⟩ := hpool d
    have hle := mul_rangeSize_le d.isLt
    have hpos := rangeSize_pos d.pos hn
    change (sosdInitGuid _ _).Bounded
    refine ⟨by omega, ?_, by omega⟩
    -- the zero that became a one is at most one past the end
    omega
  · exact fun d => (hpool d).2

/-- No guid lies in two ranges. -/
theorem inRange_unique {g : ℕ} (h : InRange d g) (h' : InRange d' g) : d = d' := by
  obtain ⟨_, hlow, hhigh⟩ := h
  obtain ⟨_, hlow', hhigh'⟩ := h'
  have hdiv : ∀ e : Fin n, e * rangeSize n ≤ g → g < e * rangeSize n + rangeSize n →
      g / rangeSize n = e := by
    intro e hle hlt
    rw [Nat.div_eq_iff (by omega)]
    constructor
    · exact hle
    · omega
  exact Fin.ext ((hdiv d hlow hhigh).symm.trans (hdiv d' hlow' hhigh'))

/-- **Guids are unique across the cluster**: whatever the daemons and their
clients do in whatever order, as long as no pool is exhausted, no guid is
returned twice, and each is in the range of the daemon it came from. -/
theorem guids_unique (hn : n ≤ intMax) {s : Cluster n} {actions : List (ClusterAction n)}
    (hok : Trace.Along (step guidBlock) (Unexhausted guidBlock) (init n) actions)
    (hrun : Trace.run (step guidBlock) (init n) actions = some s) :
    (s.returned.map Prod.snd).Nodup ∧
      ∀ e ∈ s.returned, e.2 ≠ 0 ∧ InRange e.1 e.2.toNat := by
  have hsize : guidBlock.toNat ≤ intMax := by decide
  have hinv : s.Inv := Trace.run_invariant (fun _ _ _ => inv_step hsize) (inv_init hn) hok hrun
  have hrange : ∀ e ∈ s.returned, InRange e.1 e.2.toNat := fun e he =>
    hinv.sound.used_mem (e.1, e.2.toNat) (List.mem_map_of_mem he)
  constructor
  · have hnodup := List.Nodup.of_map _ hinv.sound.nodup
    refine List.Nodup.map_on ?_ hnodup
    rintro ⟨d, g⟩ he ⟨d', g'⟩ he' (rfl : g = g')
    have hsame : d = d' := inRange_unique (hrange _ he) (hrange _ he')
    rw [hsame]
  · intro e he
    refine ⟨?_, hrange e he⟩
    intro hzero
    have hpos := (hrange e he).1
    rw [hzero] at hpos
    exact absurd hpos (by decide)

/-- A client of the second of two daemons is given a block and takes a guid of
it, and the daemon takes one of its own. -/
theorem guids_unique_two_daemons :
    ∃ s, Trace.run (step guidBlock) (init 2)
        [.connect 0 1, .serve 0, .receive 0, .clientNext 0, .daemonNext 1] = some s ∧
      (s.returned.map Prod.snd).Nodup ∧ ∀ e ∈ s.returned, e.2 ≠ 0 ∧ InRange e.1 e.2.toNat := by
  obtain ⟨s, hs⟩ : ∃ s, Trace.run (step guidBlock) (init 2)
      [.connect 0 1, .serve 0, .receive 0, .clientNext 0, .daemonNext 1] = some s := ⟨_, rfl⟩
  have hok : Trace.Along (step guidBlock) (Unexhausted guidBlock) (init 2)
      [.connect 0 1, .serve 0, .receive 0, .clientNext 0, .daemonNext 1] := by
    refine ⟨trivial, fun s₁ h₁ => ⟨?_, fun s₂ _ => ⟨trivial, fun s₃ _ => ⟨trivial, fun s₄ _ =>
      ⟨trivial, fun _ _ => trivial⟩⟩⟩⟩⟩
    obtain rfl := Option.some.inj h₁
    change claimFails (sosdInitGuid 2 1) guidBlock = false
    decide +kernel
  exact ⟨s, hs, guids_unique (by decide) hok hs⟩

end Cluster

end SosFlow
