import SosFlow.Guid.Cluster

/-!
# Whether a query failed

`SOSA_exec_query` returns the guid of the query, or `-99` when one of its
steps has failed. `SSOS_query_exec` puts that into an `int` and takes a
negative one for a lost connection, on which it exits. Of a guid the `int`
keeps the lower half, and that is negative for every other block of 2³¹
guids: each daemon's range has such guids (`mistaken_in_every_range`).
-/

namespace SosFlow

/-- What the steps of `SOSA_exec_query` return, in their order. -/
structure QuerySteps where
  packNodeId : CInt
  packReceivesPort : CInt
  packQuery : CInt
  packQueryGuid : CInt
  targetInit : CInt
  targetConnect : CInt
  targetSendMsg : CInt
  targetRecvMsg : CInt
  targetDisconnect : CInt
  targetDestroy : CInt
deriving DecidableEq

/-- Through which of its returns `SOSA_exec_query` comes back. -/
inductive ExecReturn where
  | failed
  | submitted (queryGuid : SosGuid)
deriving DecidableEq

/-- The value it returns there. -/
def ExecReturn.value : ExecReturn → SosGuid
  | .failed => BitVec.ofInt 64 (-99)
  | .submitted queryGuid => queryGuid

/-- `query_guid`: a client draws it from its pool. -/
def queryGuidOf (client : Bool) (drawn : SosGuid) : SosGuid :=
  if client then drawn else BitVec.ofInt 64 (-99999)

/-- **`SOSA_exec_query`**, with what its steps return. -/
def execQuery (client : Bool) (drawn : SosGuid) (steps : QuerySteps) : ExecReturn :=
  if steps.packNodeId.toInt ≤ 0 then .failed
  else if steps.packReceivesPort.toInt ≤ 0 then .failed
  else if steps.packQuery.toInt ≤ 0 then .failed
  else if steps.packQueryGuid.toInt ≤ 0 then .failed
  else if steps.targetInit.toInt < 0 then .failed
  else if steps.targetConnect.toInt < 0 then .failed
  else if steps.targetSendMsg.toInt < 0 then .failed
  else if steps.targetRecvMsg.toInt < 0 then .failed
  else if steps.targetDisconnect.toInt < 0 then .failed
  else if steps.targetDestroy.toInt < 0 then .failed
  else .submitted (queryGuidOf client drawn)

/-- How `SSOS_query_exec` ends: it has done nothing, it returns, or it exits the
process. -/
inductive QueryExecEnd where
  | notOnline
  | returned
  | exited
deriving DecidableEq

/-- The test of what came back. -/
def takesErrorBranch (ret : SosGuid) (online : Bool) : Bool :=
  (ret.setWidth 32 : CInt).toInt < 0 && online

/-- **`SSOS_query_exec`** of a client that is online or not, at the call and behind
`SOSA_exec_query`: how it ends, and what `SOSA_exec_query` came back with. -/
def ssosQueryExec (online stillOnline : Bool) (drawn : SosGuid) (steps : QuerySteps) :
    QueryExecEnd × Option ExecReturn :=
  if online then
    let ret := execQuery true drawn steps
    (if takesErrorBranch ret.value stillOnline then .exited else .returned, some ret)
  else (.notOnline, none)

/-- **Reported as failed only when it failed.** -/
def ReportedRight (online stillOnline : Bool) (drawn : SosGuid) (steps : QuerySteps) : Prop :=
  (ssosQueryExec online stillOnline drawn steps).1 = .exited ↔
    (ssosQueryExec online stillOnline drawn steps).2 = some .failed

/-- All steps go well. -/
structure QuerySteps.Pass (steps : QuerySteps) : Prop where
  packNodeId : 0 < steps.packNodeId.toInt
  packReceivesPort : 0 < steps.packReceivesPort.toInt
  packQuery : 0 < steps.packQuery.toInt
  packQueryGuid : 0 < steps.packQueryGuid.toInt
  targetInit : 0 ≤ steps.targetInit.toInt
  targetConnect : 0 ≤ steps.targetConnect.toInt
  targetSendMsg : 0 ≤ steps.targetSendMsg.toInt
  targetRecvMsg : 0 ≤ steps.targetRecvMsg.toInt
  targetDisconnect : 0 ≤ steps.targetDisconnect.toInt
  targetDestroy : 0 ≤ steps.targetDestroy.toInt

/-- The lower half of the guid is not negative as an `int`. -/
def LowHalfNonneg (g : SosGuid) : Prop := g.toNat % 2 ^ 32 < 2 ^ 31

/-- **When it is**: a step fails and the runtime is still online, or all steps go well and
the guid is one of those whose lower half is not negative, unless the runtime has gone
offline. -/
def QueryMeets (online stillOnline : Bool) (drawn : SosGuid) (steps : QuerySteps) : Prop :=
  online = true → (¬ steps.Pass ∧ stillOnline = true) ∨
    (steps.Pass ∧ (LowHalfNonneg drawn ∨ stillOnline = false))

/-! ## The two returns -/

variable {steps : QuerySteps} {drawn : SosGuid}

/-- All steps have to go well. -/
theorem execQuery_of_pass (client : Bool) (h : steps.Pass) :
    execQuery client drawn steps = .submitted (queryGuidOf client drawn) := by
  unfold execQuery
  rw [if_neg (not_le.mpr h.packNodeId), if_neg (not_le.mpr h.packReceivesPort),
    if_neg (not_le.mpr h.packQuery), if_neg (not_le.mpr h.packQueryGuid),
    if_neg (not_lt.mpr h.targetInit), if_neg (not_lt.mpr h.targetConnect),
    if_neg (not_lt.mpr h.targetSendMsg), if_neg (not_lt.mpr h.targetRecvMsg),
    if_neg (not_lt.mpr h.targetDisconnect), if_neg (not_lt.mpr h.targetDestroy)]

/-- **The error return** is taken when one of them has not. -/
theorem execQuery_eq_failed (client : Bool) :
    execQuery client drawn steps = .failed ↔ ¬ steps.Pass := by
  simp only [execQuery, ite_eq_left_iff, not_le, not_lt, reduceCtorEq]
  constructor
  · intro h hpass
    exact h hpass.packNodeId hpass.packReceivesPort hpass.packQuery hpass.packQueryGuid
      hpass.targetInit hpass.targetConnect hpass.targetSendMsg hpass.targetRecvMsg
      hpass.targetDisconnect hpass.targetDestroy
  · intro h hnode hport hquery hguid hinit hconnect hsend hrecv hdisconnect hdestroy
    exact h ⟨hnode, hport, hquery, hguid, hinit, hconnect, hsend, hrecv, hdisconnect, hdestroy⟩

/-- **What an `int` makes of a guid** is negative for half of them. -/
theorem toInt_setWidth_neg (g : SosGuid) :
    (g.setWidth 32 : CInt).toInt < 0 ↔ ¬ LowHalfNonneg g := by
  unfold LowHalfNonneg
  rw [BitVec.toInt_eq_toNat_cond, BitVec.toNat_setWidth]
  have hlt := Nat.mod_lt g.toNat (show 0 < 2 ^ 32 by decide)
  split_ifs <;> omega

/-- The error return is negative. -/
theorem takesErrorBranch_failed (online : Bool) :
    takesErrorBranch ExecReturn.failed.value online = online := by
  cases online <;> decide

theorem takesErrorBranch_submitted (online : Bool) :
    takesErrorBranch (ExecReturn.submitted drawn).value online = true ↔
      ¬ LowHalfNonneg drawn ∧ online = true := by
  unfold takesErrorBranch
  rw [Bool.and_eq_true, decide_eq_true_iff]
  exact and_congr_left' (toInt_setWidth_neg drawn)

/-! ## What is reported -/

/-- **A query is reported as failed only when it failed**, if and only if the lower half
of its guid is not negative, as far as that is looked at. -/
theorem reportedRight_iff (online stillOnline : Bool) (drawn : SosGuid) (steps : QuerySteps) :
    ReportedRight online stillOnline drawn steps ↔ QueryMeets online stillOnline drawn steps := by
  unfold ReportedRight QueryMeets ssosQueryExec
  cases online with
  | false => simp
  | true =>
      have hexited : (if takesErrorBranch (execQuery true drawn steps).value stillOnline
          then QueryExecEnd.exited else .returned) = .exited ↔
          takesErrorBranch (execQuery true drawn steps).value stillOnline = true := by
        split_ifs with hbranch
        · exact iff_of_true rfl hbranch
        · exact iff_of_false (by decide) hbranch
      simp only [if_true, Option.some_inj, hexited, true_implies]
      by_cases hpass : steps.Pass
      · rw [execQuery_of_pass true hpass, queryGuidOf, if_pos rfl, takesErrorBranch_submitted]
        cases stillOnline <;> simp [hpass]
      · rw [(execQuery_eq_failed true).mpr hpass, takesErrorBranch_failed]
        simp [hpass]

/-- The guids of every range run through all lower halves. -/
theorem pow_le_rangeSize {n : ℕ} (hpos : 0 < n) (h : n ≤ intMax) : 2 ^ 32 ≤ rangeSize n := by
  unfold rangeSize
  rw [Nat.le_div_iff_mul_le hpos]
  calc 2 ^ 32 * n ≤ 2 ^ 32 * intMax := Nat.mul_le_mul_left _ h
    _ ≤ llongMax := by decide

/-- **Every daemon's range has guids that are taken for an error.** -/
theorem mistaken_in_every_range {n : ℕ} (hn : n ≤ intMax) (d : Fin n) :
    ∃ g : SosGuid, Cluster.InRange d g.toNat ∧ ¬ LowHalfNonneg g := by
  have hpos : 0 < n := d.pos
  have hsize := pow_le_rangeSize hpos hn
  have hend := mul_rangeSize_le d.isLt
  -- the first guid from the start of the range on with a lower half of 2³¹ or more
  obtain ⟨g, hlow, hstart, hclose⟩ : ∃ g, ¬ g % 2 ^ 32 < 2 ^ 31 ∧ d * rangeSize n ≤ g ∧
      g ≤ d * rangeSize n + 2 ^ 31 := by
    by_cases hlow : (d * rangeSize n) % 2 ^ 32 < 2 ^ 31
    · exact ⟨d * rangeSize n / 2 ^ 32 * 2 ^ 32 + 2 ^ 31, by omega, by omega, by omega⟩
    · exact ⟨d * rangeSize n, hlow, le_rfl, Nat.le_add_right _ _⟩
  have hguid : (BitVec.ofNat 64 g).toNat = g := by
    unfold llongMax at hend
    rw [BitVec.toNat_ofNat, Nat.mod_eq_of_lt]
    omega
  refine ⟨BitVec.ofNat 64 g, ?_, ?_⟩
  · rw [hguid]
    exact ⟨by omega, hstart, by omega⟩
  · rw [LowHalfNonneg, hguid]
    exact hlow

/-- Steps that all go well. -/
def passingSteps : QuerySteps := ⟨5, 4, 5, 8, 0, 0, 64, 28, 0, 0⟩

/-- **The first guid of the second of two daemons** ends the process that submits a query
with it. -/
theorem not_reportedRight :
    (sosdInitGuid 2 1).next = BitVec.ofNat 64 (2 ^ 62 - 1) ∧
    Cluster.InRange (1 : Fin 2) (sosdInitGuid 2 1).next.toNat ∧
    ssosQueryExec true true (sosdInitGuid 2 1).next passingSteps =
      (.exited, some (.submitted (sosdInitGuid 2 1).next)) ∧
    ¬ ∀ (n : ℕ) (d : Fin n) (g : SosGuid) (steps : QuerySteps), n ≤ intMax →
      Cluster.InRange d g.toNat → ReportedRight true true g steps := by
  have hfirst : (sosdInitGuid 2 1).next = BitVec.ofNat 64 (2 ^ 62 - 1) := by
    have hnext : (sosdInitGuid 2 1).next.toNat = max 1 (1 * rangeSize 2) :=
      (sosdInitGuid_eq (n := 2) (r := 1) (by decide) (by decide)).1
    refine BitVec.eq_of_toNat_eq (hnext.trans ?_)
    rw [BitVec.toNat_ofNat, rangeSize, llongMax]
    omega
  have hrange : Cluster.InRange (1 : Fin 2) (sosdInitGuid 2 1).next.toNat := by
    rw [hfirst]
    unfold Cluster.InRange rangeSize
    decide
  have hends : ssosQueryExec true true (sosdInitGuid 2 1).next passingSteps =
      (.exited, some (.submitted (sosdInitGuid 2 1).next)) := by
    rw [hfirst]
    decide
  refine ⟨hfirst, hrange, hends, ?_⟩
  intro hall
  have hright := hall 2 1 _ passingSteps (by decide) hrange
  unfold ReportedRight at hright
  rw [hends] at hright
  cases Option.some.inj (hright.mp rfl)

end SosFlow
