import SosFlow.Msg.Cloud
import Mathlib.Data.List.Range

/-!
# Aggregators and listeners

A deployment has its aggregators at the lowest ranks and its listeners
behind them. Which listener belongs to which aggregator is worked out in
three places: `SOSD_cloud_init` picks the aggregator a listener sends to,
the loop in `SOSD_cloud_handle_triggerpull` picks the listeners an
aggregator sends to, and `SOSD_cloud_shutdown_notice` picks the listeners
that tell an aggregator of a shutdown. Over MPI the first and the second
are formulas over the ranks; over the other transports the second is a
table that the listeners' registrations fill.

`topology_agrees` finds one partition behind all three.
-/

namespace SosFlow

/-- `SOS->role` of a daemon. -/
inductive DaemonRole where
  | listener
  | aggregator
deriving DecidableEq

/-- **A deployment**: what every daemon is told of the others. "SOS requires
an aggregator." -/
structure Deployment where
  aggregatorCount : ℕ
  listenerCount : ℕ
  aggregatorCount_pos : 0 < aggregatorCount

/-- `SOSD.daemon.cloud_sync_target_count` and `cloud_sync_target`. -/
structure CloudSync where
  targetCount : ℕ
  target : ℤ
deriving DecidableEq

namespace Deployment

variable (d : Deployment)

def commSize : ℕ := d.aggregatorCount + d.listenerCount

def IsAggregator (rank : ℕ) : Prop := rank < d.aggregatorCount

def IsListener (rank : ℕ) : Prop := d.aggregatorCount ≤ rank ∧ rank < d.commSize

def listeners : List ℕ := List.range' d.aggregatorCount d.listenerCount

/-- The role a rank is given. -/
def roleOf (rank : ℕ) : Option DaemonRole :=
  if d.aggregatorCount ≤ rank ∧ rank ≤ d.commSize then some .listener
  else if rank < d.aggregatorCount then some .aggregator
  else none

/-! ## Over MPI -/

/-- `world_roles`, as `MPI_Allgather` leaves it. -/
def worldRoles : List (Option DaemonRole) := (List.range d.commSize).map d.roleOf

/-- The test of both loops over the world. -/
def isTarget (node : ℕ) : Bool := d.worldRoles[node]? = some (some .aggregator)

/-- `cloud_sync_target_set`. -/
def cloudSyncTargetSet : List ℕ := (List.range d.commSize).filter d.isTarget

/-- `SOSD_cloud_init` over MPI: the targets counted, compiled into a set, and
one of them selected. -/
def mpiCloudInit (commRank : ℕ) : Option CloudSync := do
  let count := (List.range d.commSize).countP d.isTarget
  if count = 0 then none
  else
    let target ← d.cloudSyncTargetSet[if commRank > 0 then commRank % count else 0]?
    some ⟨count, target⟩

/-- The loop of `SOSD_cloud_handle_triggerpull` over MPI: the ranks it sends
the trigger to, in this order. -/
def mpiFanOut (commRank : ℕ) : List ℕ :=
  match d.mpiCloudInit commRank with
  | none => []
  | some sync =>
      if d.roleOf commRank = some .aggregator ∧ 1 < d.commSize then
        (List.range' sync.targetCount (d.commSize - sync.targetCount)).filter
          fun id => id % sync.targetCount = commRank
      else []

/-! ## Over the other transports -/

/-- `SOSD_cloud_init` over sockets, ZeroMQ and EVPath, with its sanity
checks. -/
def cloudInit (commRank : ℕ) : Option CloudSync := do
  let role ← d.roleOf commRank
  if d.aggregatorCount = 0 then none
  else if d.commSize ≤ commRank then none
  else if role = .listener ∧ commRank < d.aggregatorCount then none
  else if role = .aggregator ∧ d.aggregatorCount ≤ commRank then none
  else if role = .aggregator then some ⟨d.aggregatorCount, -1⟩
  else some ⟨d.aggregatorCount, (commRank % d.aggregatorCount : ℕ)⟩

/-- A REGISTER message from `msgFrom`, as an aggregator handles it. -/
def register (cloudTargets : List Bool) (msgFrom : ℕ) : List Bool := cloudTargets.set msgFrom true

/-- The loop of `SOSD_cloud_handle_triggerpull`: it skips who has not
registered. -/
def registeredFanOut (commRank : ℕ) (registrations : List ℕ) : List ℕ :=
  let cloudTargets := registrations.foldl register (List.replicate d.commSize false)
  if d.roleOf commRank = some .aggregator ∧ 1 < d.commSize then
    (List.range d.commSize).filter fun id => cloudTargets[id]? = some true
  else []

/-- The listeners that register with an aggregator: those that it is the
target of. -/
def registering (aggregator : ℕ) : List ℕ :=
  d.listeners.filter fun rank => (d.cloudInit rank).map (·.target) = some (aggregator : ℤ)

/-! ## What is to agree -/

/-- Whom a listener that handles a SHUTDOWN notifies: "the first N listener
ranks will notify the N aggregators". -/
def shutdownNotice (init : ℕ → Option CloudSync) (commRank : ℕ) : List ℤ :=
  match init commRank with
  | none => []
  | some sync =>
      if (commRank : ℤ) - sync.targetCount < sync.targetCount then [sync.target] else []

/-- The notices of all listeners. -/
def shutdownNotices (init : ℕ → Option CloudSync) : List ℤ :=
  d.listeners.flatMap (shutdownNotice init)

/-- The rank a daemon sends to. -/
def upLink (init : ℕ → Option CloudSync) (commRank : ℕ) : Option ℤ :=
  (init commRank).map CloudSync.target

/-- **The topology agrees**: every listener sends to an aggregator, which is
the only daemon that sends to the listener; every aggregator reaches each of its listeners
once, and reaches no aggregator; and with enough listeners every aggregator
is notified once. -/
structure Agrees (init : ℕ → Option CloudSync) (fanOut : ℕ → List ℕ) : Prop where
  one_sender : ∀ rank, d.IsListener rank → ∃ a : ℕ, d.IsAggregator a ∧
    upLink init rank = some (a : ℤ) ∧ ∀ b, rank ∈ fanOut b ↔ b = a
  once : ∀ a rank : ℕ, d.IsListener rank → upLink init rank = some (a : ℤ) →
    (fanOut a).count rank = 1
  only_listeners : ∀ a, ∀ id ∈ fanOut a, d.IsListener id
  no_aggregator : ∀ a, ∀ id ∈ fanOut a, ¬ d.IsAggregator id
  one_notice : d.aggregatorCount ≤ d.listenerCount → ∀ a : ℕ, d.IsAggregator a →
    (d.shutdownNotices init).count (a : ℤ) = 1

/-! ## The ranks -/

theorem mem_listeners {rank : ℕ} : rank ∈ d.listeners ↔ d.IsListener rank := by
  rw [listeners, List.mem_range'_1]
  exact Iff.rfl

theorem roleOf_aggregator {rank : ℕ} : d.roleOf rank = some .aggregator ↔ d.IsAggregator rank := by
  rw [roleOf, IsAggregator]
  split
  · simp
    omega
  · split <;> simp_all

theorem roleOf_listener {rank : ℕ} (h : d.IsListener rank) : d.roleOf rank = some .listener := by
  rw [roleOf, if_pos ⟨h.1, h.2.le⟩]

/-- Where there is a listener there are two daemons. -/
theorem one_lt_commSize {rank : ℕ} (h : d.IsListener rank) : 1 < d.commSize := by
  have hpos := d.aggregatorCount_pos
  have hlt := h.2
  have hle := h.1
  omega

/-! ## Listeners and their targets -/

theorem isTarget_iff {node : ℕ} (h : node < d.commSize) :
    d.isTarget node = true ↔ node < d.aggregatorCount := by
  rw [isTarget, worldRoles, decide_eq_true_eq, List.getElem?_map, List.getElem?_range h,
    Option.map_some, Option.some_inj]
  exact d.roleOf_aggregator

/-- The targets are the lowest ranks. -/
theorem cloudSyncTargetSet_eq : d.cloudSyncTargetSet = List.range d.aggregatorCount := by
  have hsplit : List.range d.commSize = List.range d.aggregatorCount ++
      (List.range d.listenerCount).map (d.aggregatorCount + ·) := List.range_add
  rw [cloudSyncTargetSet, hsplit, List.filter_append, List.filter_eq_self.mpr,
    List.filter_eq_nil_iff.mpr, List.append_nil]
  · intro node hnode
    obtain ⟨i, hi, rfl⟩ := List.mem_map.mp hnode
    have hlt : d.aggregatorCount + i < d.commSize := by
      have := List.mem_range.mp hi
      rw [commSize]
      omega
    rw [d.isTarget_iff hlt]
    omega
  · intro node hnode
    have hlt := List.mem_range.mp hnode
    exact (d.isTarget_iff (by rw [commSize]; omega)).mpr hlt

theorem countP_isTarget : (List.range d.commSize).countP d.isTarget = d.aggregatorCount := by
  rw [List.countP_eq_length_filter]
  show d.cloudSyncTargetSet.length = _
  rw [cloudSyncTargetSet_eq, List.length_range]

/-- What `SOSD_cloud_init` comes to over MPI. -/
theorem mpiCloudInit_eq (rank : ℕ) :
    d.mpiCloudInit rank = some ⟨d.aggregatorCount, (rank % d.aggregatorCount : ℕ)⟩ := by
  have hpos := d.aggregatorCount_pos
  have hindex : (if rank > 0 then rank % d.aggregatorCount else 0) = rank % d.aggregatorCount := by
    split
    · rfl
    · rw [show rank = 0 by omega, Nat.zero_mod]
  have hget : (List.range d.aggregatorCount)[rank % d.aggregatorCount]? =
      some (rank % d.aggregatorCount) := List.getElem?_range (Nat.mod_lt _ hpos)
  simp only [mpiCloudInit, countP_isTarget, if_neg hpos.ne', hindex, cloudSyncTargetSet_eq, hget,
    Option.bind_eq_bind, Option.bind_some]

/-- And over the other transports. -/
theorem cloudInit_eq {rank : ℕ} (h : d.IsListener rank) :
    d.cloudInit rank = some ⟨d.aggregatorCount, (rank % d.aggregatorCount : ℕ)⟩ := by
  have hpos := d.aggregatorCount_pos
  have hle : ¬ d.commSize ≤ rank := Nat.not_le.mpr h.2
  have hlt : ¬ rank < d.aggregatorCount := Nat.not_lt.mpr h.1
  simp [cloudInit, d.roleOf_listener h, hpos.ne', hle, hlt]

/-! ## The partition -/

variable {d}

/-- **One notice for each aggregator**: the first listeners, as many as there
are aggregators, have one aggregator each as their target. -/
theorem shutdownNotices_eq {init : ℕ → Option CloudSync}
    (hinit : ∀ rank, d.IsListener rank →
      init rank = some ⟨d.aggregatorCount, (rank % d.aggregatorCount : ℕ)⟩)
    (hle : d.aggregatorCount ≤ d.listenerCount) :
    d.shutdownNotices init = (List.range d.aggregatorCount).map Nat.cast := by
  -- a listener notifies when it is one of the first, and then its residue is
  -- its place among them
  obtain ⟨more, hmore⟩ := Nat.exists_eq_add_of_le hle
  have hsplit : d.listeners = List.range' d.aggregatorCount d.aggregatorCount ++
      List.range' (d.aggregatorCount + d.aggregatorCount) more := by
    rw [listeners, hmore, List.range'_append_1]
  have hlistener : ∀ rank, d.aggregatorCount ≤ rank →
      rank < d.aggregatorCount + d.aggregatorCount + more → d.IsListener rank := by
    intro rank hge hlt
    refine ⟨hge, ?_⟩
    rw [commSize]
    omega
  have hfirst : ∀ rank ∈ List.range' d.aggregatorCount d.aggregatorCount,
      shutdownNotice init rank = [((rank - d.aggregatorCount : ℕ) : ℤ)] := by
    intro rank hrank
    obtain ⟨hge, hlt⟩ := List.mem_range'_1.mp hrank
    have hmod : rank % d.aggregatorCount = rank - d.aggregatorCount := by
      rw [Nat.mod_eq_sub_mod hge, Nat.mod_eq_of_lt (by omega)]
    rw [shutdownNotice, hinit rank (hlistener rank hge (by omega)), hmod]
    exact if_pos (by show (rank : ℤ) - d.aggregatorCount < d.aggregatorCount; omega)
  have hrest : ∀ rank ∈ List.range' (d.aggregatorCount + d.aggregatorCount) more,
      shutdownNotice init rank = [] := by
    intro rank hrank
    obtain ⟨hge, hlt⟩ := List.mem_range'_1.mp hrank
    rw [shutdownNotice, hinit rank (hlistener rank (by omega) hlt)]
    exact if_neg (by show ¬ (rank : ℤ) - d.aggregatorCount < d.aggregatorCount; omega)
  calc d.shutdownNotices init
      = (List.range' d.aggregatorCount d.aggregatorCount).flatMap
          (fun rank => [((rank - d.aggregatorCount : ℕ) : ℤ)]) ++
        (List.range' (d.aggregatorCount + d.aggregatorCount) more).flatMap fun _ => [] := by
        rw [shutdownNotices, hsplit, List.flatMap_append, List.flatMap_congr hfirst,
          List.flatMap_congr hrest]
    _ = (List.range' d.aggregatorCount d.aggregatorCount).map
          fun rank => ((rank - d.aggregatorCount : ℕ) : ℤ) := by
        rw [← List.map_eq_flatMap, List.flatMap_eq_nil_iff.mpr (fun _ _ => rfl), List.append_nil]
    _ = (List.range d.aggregatorCount).map Nat.cast := by
        rw [List.range'_eq_map_range, List.map_map]
        refine List.map_congr_left ?_
        intro i _
        show ((d.aggregatorCount + i - d.aggregatorCount : ℕ) : ℤ) = i
        rw [Nat.add_sub_cancel_left]

/-- **Both ways agree** once every listener's target is its residue and an
aggregator sends to the ranks of its residue. -/
theorem agrees_of_residue {init : ℕ → Option CloudSync} {fanOut : ℕ → List ℕ}
    (hinit : ∀ rank, d.IsListener rank →
      init rank = some ⟨d.aggregatorCount, (rank % d.aggregatorCount : ℕ)⟩)
    (hmem : ∀ a id, id ∈ fanOut a ↔ d.IsListener id ∧ id % d.aggregatorCount = a)
    (hnodup : ∀ a, (fanOut a).Nodup) : d.Agrees init fanOut := by
  have hup : ∀ rank, d.IsListener rank →
      upLink init rank = some ((rank % d.aggregatorCount : ℕ) : ℤ) := by
    intro rank hrank
    rw [upLink, hinit rank hrank, Option.map_some]
  refine ⟨?_, ?_, ?_, ?_, ?_⟩
  · intro rank hrank
    refine ⟨_, Nat.mod_lt _ d.aggregatorCount_pos, hup rank hrank, ?_⟩
    intro b
    rw [hmem]
    exact ⟨fun h => h.2.symm, fun h => ⟨hrank, h.symm⟩⟩
  · intro a rank hrank hlink
    rw [hup rank hrank, Option.some_inj, Int.natCast_inj] at hlink
    exact List.count_eq_one_of_mem (hnodup a) ((hmem a rank).mpr ⟨hrank, hlink⟩)
  · intro a id hid
    exact ((hmem a id).mp hid).1
  · intro a id hid hagg
    have hle := ((hmem a id).mp hid).1.1
    exact absurd hagg (Nat.not_lt.mpr hle)
  · intro hle a ha
    rw [shutdownNotices_eq hinit hle]
    refine List.count_eq_one_of_mem (List.nodup_range.map Nat.cast_injective) ?_
    exact List.mem_map.mpr ⟨a, List.mem_range.mpr ha, rfl⟩

/-! ## The two fan-outs -/

/-- What a listener has for its residue is an aggregator of at least two
daemons. -/
theorem aggregates_of_listener {id : ℕ} (hid : d.IsListener id) :
    d.roleOf (id % d.aggregatorCount) = some .aggregator ∧ 1 < d.commSize :=
  ⟨d.roleOf_aggregator.mpr (Nat.mod_lt _ d.aggregatorCount_pos), d.one_lt_commSize hid⟩

theorem mem_mpiFanOut {a id : ℕ} :
    id ∈ d.mpiFanOut a ↔ d.IsListener id ∧ id % d.aggregatorCount = a := by
  rw [mpiFanOut, mpiCloudInit_eq]
  show id ∈ (if d.roleOf a = some .aggregator ∧ 1 < d.commSize then
    (List.range' d.aggregatorCount (d.commSize - d.aggregatorCount)).filter
      fun id => id % d.aggregatorCount = a else []) ↔ _
  have hsize : d.aggregatorCount + (d.commSize - d.aggregatorCount) = d.commSize := by
    rw [commSize, Nat.add_sub_cancel_left]
  split
  · rw [List.mem_filter, List.mem_range'_1, hsize, decide_eq_true_eq]
    exact Iff.rfl
  · rename_i hnot
    refine ⟨fun h => absurd h List.not_mem_nil, ?_⟩
    rintro ⟨hid, rfl⟩
    exact absurd (aggregates_of_listener hid) hnot

theorem nodup_mpiFanOut (a : ℕ) : (d.mpiFanOut a).Nodup := by
  rw [mpiFanOut, mpiCloudInit_eq]
  show (if _ then _ else _ : List ℕ).Nodup
  split
  · exact (List.nodup_range' 1).filter _
  · exact List.nodup_nil

/-- What the registrations leave in `cloud_targets`. -/
theorem getElem?_registered (registrations : List ℕ) (cloudTargets : List Bool) {id : ℕ}
    (hid : id < cloudTargets.length) :
    (registrations.foldl register cloudTargets)[id]? = some true ↔
      id ∈ registrations ∨ cloudTargets[id]? = some true := by
  induction registrations generalizing cloudTargets with
  | nil => simp
  | cons msgFrom rest ih =>
      rw [List.foldl_cons, ih _ (by rw [register, List.length_set]; exact hid), register,
        List.getElem?_set, List.mem_cons]
      by_cases heq : msgFrom = id
      · subst heq
        simp [hid]
      · rw [if_neg heq]
        have hne : id ≠ msgFrom := fun h => heq h.symm
        simp [hne]

theorem mem_registering {a id : ℕ} :
    id ∈ d.registering a ↔ d.IsListener id ∧ id % d.aggregatorCount = a := by
  rw [registering, List.mem_filter, mem_listeners, decide_eq_true_eq]
  refine and_congr_right ?_
  intro hid
  rw [cloudInit_eq d hid, Option.map_some, Option.some_inj, Int.natCast_inj]

theorem mem_registeredFanOut {a id : ℕ} {registrations : List ℕ}
    (h : registrations.Perm (d.registering a)) :
    id ∈ d.registeredFanOut a registrations ↔ d.IsListener id ∧ id % d.aggregatorCount = a := by
  rw [registeredFanOut]
  split
  · rw [List.mem_filter, List.mem_range, decide_eq_true_eq]
    constructor
    · rintro ⟨hlt, hreg⟩
      rw [getElem?_registered _ _ (by rw [List.length_replicate]; exact hlt)] at hreg
      rcases hreg with hmem | hfresh
      · exact mem_registering.mp (h.mem_iff.mp hmem)
      · rw [List.getElem?_replicate, if_pos hlt] at hfresh
        exact absurd hfresh (by simp)
    · rintro ⟨hid, hmod⟩
      refine ⟨hid.2, ?_⟩
      rw [getElem?_registered _ _ (by rw [List.length_replicate]; exact hid.2)]
      exact Or.inl (h.mem_iff.mpr (mem_registering.mpr ⟨hid, hmod⟩))
  · rename_i hnot
    refine ⟨fun h => absurd h List.not_mem_nil, ?_⟩
    rintro ⟨hid, rfl⟩
    exact absurd (aggregates_of_listener hid) hnot

theorem nodup_registeredFanOut (a : ℕ) (registrations : List ℕ) :
    (d.registeredFanOut a registrations).Nodup := by
  rw [registeredFanOut]
  split
  · exact List.nodup_range.filter _
  · exact List.nodup_nil

end Deployment

/-- The listeners that the topology makes notify are those that the notice
itself is built for. -/
theorem notifies_iff {commRank targetCount : ℕ} (hrank : commRank ≤ intMax)
    (hcount : targetCount ≤ intMax) :
    Notifies (BitVec.ofNat 32 commRank) (BitVec.ofNat 32 targetCount) ↔
      (commRank : ℤ) - targetCount < targetCount := by
  rw [Notifies, toInt_ofNat_of_le hrank, toInt_ofNat_of_le hcount]

/-- **The topology agrees in both directions**, over MPI, and over the other
transports once the listeners have registered, in any order. -/
theorem topology_agrees (d : Deployment) :
    d.Agrees d.mpiCloudInit d.mpiFanOut ∧
      ∀ registrations : ℕ → List ℕ, (∀ a, (registrations a).Perm (d.registering a)) →
        d.Agrees d.cloudInit fun a => d.registeredFanOut a (registrations a) := by
  constructor
  · refine Deployment.agrees_of_residue ?_ ?_ Deployment.nodup_mpiFanOut
    · intro rank _
      exact d.mpiCloudInit_eq rank
    · intro a id
      exact Deployment.mem_mpiFanOut
  · intro registrations hperm
    refine Deployment.agrees_of_residue ?_ ?_ ?_
    · intro rank hrank
      exact d.cloudInit_eq hrank
    · intro a id
      exact Deployment.mem_registeredFanOut (hperm a)
    · intro a
      exact Deployment.nodup_registeredFanOut a (registrations a)

end SosFlow
