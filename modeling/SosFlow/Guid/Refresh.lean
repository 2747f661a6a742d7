import SosFlow.Guid.Blocks
import SosFlow.Lib.Trace
import SosFlow.Msg.Framing

/-!
# The next block of a client

A client that has taken the last value of its block asks the daemon for
another in the same call of `SOS_uid_next`. It unpacks the block from the
reply whether there was one or not: after a request that failed the reply
is the zeros it was allocated with, the pool goes from zero to zero, and
the call after it returns zero.
-/

namespace SosFlow

/-- **What came of a request for a block.** -/
inductive Refill where
  | answered (blockFrom blockTo : SosGuid)
  | failed
deriving DecidableEq

/-- The pool that is found in the reply. -/
def Refill.pool : Refill → SosUid
  | .answered blockFrom blockTo => ⟨blockFrom, blockTo⟩
  | .failed => ⟨0, 0⟩

/-- What a client knows of itself when it asks: whether it runs in
`offline_test_mode`, and the rank of its daemon. -/
structure Asker where
  offlineTestMode : Bool
  commRank : CInt

section

variable [DoubleCodec]

/-- The reply buffer after `SOS_send_to_daemon`: with the daemon's message in
front, or as it was allocated. -/
def sosSendToDaemon (commRank : CInt) (r : Refill) : Option SosBuffer := do
  let reply ← bufferOfSize sosDefaultBufferMax
  match r with
  | .answered blockFrom blockTo =>
      let m ← (sosdHandleGuidBlock commRank blockFrom blockTo).build
      let reply ← reply.store 0 (m.buffer.data.take m.buffer.len.toNat)
      some (reply.setLen m.buffer.len)
  | .failed => some reply

/-- The pool `SOS_uid_next` unpacks from a reply. -/
def unpackBlock (reply : SosBuffer) : Option SosUid := do
  let (_, offset) ← sosMsgUnzip reply 0
  let next ← sosBufferUnpack reply offset ['g']
  let last ← sosBufferUnpack next.buffer next.offset ['g']
  match next.outs, last.outs with
  | [some (.guid next)], [some (.guid last)] => some ⟨next, last⟩
  | _, _ => none

/-- **The refresh of `SOS_uid_next`**: the pool after the request, which in
`offline_test_mode` is left as the increment made it. -/
def sosUidRefresh (asker : Asker) (id : SosUid) (r : Refill) : Option SosUid := do
  let reply ← sosSendToDaemon asker.commRank r
  if asker.offlineTestMode then some id.advance else unpackBlock reply

/-! ## What is unpacked from a reply -/

/-- A reply with a header and two guids is unpacked as these. -/
theorem unpackBlock_of_holds {reply : SosBuffer} (header : SosMsgHeader)
    {blockFrom blockTo : SosGuid} (hmax : 40 ≤ reply.max)
    (h : Mem.Holds reply.data 0
      (header.enc ++ (encAll [.g blockFrom] ++ encAll [.g blockTo]))) :
    unpackBlock reply = some ⟨blockFrom, blockTo⟩ := by
  rw [Mem.holds_append, Mem.holds_append] at h
  obtain ⟨hheader, hfrom, hto⟩ := h
  have hread : ∀ (offset : ℕ) (g : SosGuid), offset + 8 ≤ 40 →
      Mem.Holds reply.data offset (encAll [.g g]) →
      sosBufferUnpack reply offset ['g'] = some ⟨reply, offset + 8, 8, [some (.guid g)]⟩ := by
    intro offset g hin hholds
    exact sosBufferUnpack_one (f := .g g) rfl id trivial (by simpa using hholds) (hin.trans hmax)
  rw [unpackBlock, sosMsgUnzip_of_holds (by unfold headerSize; omega) hheader]
  simp only [Option.bind_eq_bind, Option.bind_some]
  rw [hread headerSize blockFrom (by decide) hfrom]
  simp only [Option.bind_some]
  rw [hread (headerSize + 8) blockTo (by decide) hto]
  rfl

/-- **An answer is unpacked as the block the daemon cut.** -/
theorem unpackBlock_answered (commRank : CInt) (blockFrom blockTo : SosGuid) :
    ((sosSendToDaemon commRank (.answered blockFrom blockTo)).bind unpackBlock) =
      some ⟨blockFrom, blockTo⟩ := by
  have hfits : (sosdHandleGuidBlock commRank blockFrom blockTo).Fits := by
    refine ⟨by change (24 : ℤ) ≤ 4096; decide, by change (4096 : ℤ) ≤ 2147483647; decide, ?_⟩
    exact callsFit_of_half (by change 4096 ≤ 2147483647; decide)
      (by change 24 + (16 + 0) ≤ 4096 / 2; decide)
  obtain ⟨m, hbuild, hframed⟩ := Layout.builds_framed_iff.mpr hfits
  obtain ⟨reply, hreply⟩ := bufferOfSize_eq sosDefaultBufferMax ⟨by decide, by decide⟩
  have hmax : reply.max = 4096 := by exact_mod_cast (bufferOfSize_some hreply).1.symm
  have hlen : m.buffer.len = (40 : ℕ) := hframed.len
  obtain ⟨header, hholds⟩ : ∃ header : SosMsgHeader, Mem.Holds m.buffer.data 0
      (header.enc ++ (encAll [.g blockFrom] ++ encAll [.g blockTo])) := ⟨_, hframed.bytes⟩
  -- the message is what its buffer holds up to its length
  have htake : m.buffer.data.take 40 =
      header.enc ++ (encAll [.g blockFrom] ++ encAll [.g blockTo]) := by
    obtain ⟨rest, hrest⟩ := hholds
    rw [List.drop_zero] at hrest
    rw [← hrest]
    exact List.take_left' rfl
  obtain ⟨data, hdata⟩ : ∃ data, Mem.store reply.data 0 (m.buffer.data.take 40) = some data :=
    ⟨_, Mem.store_eq (by rw [htake]; change 40 ≤ reply.max; omega)⟩
  have hsize := Mem.length_store hdata
  obtain ⟨reply', hstore, hkept⟩ : ∃ reply', reply.store 0 (m.buffer.data.take 40) = some reply' ∧
      reply'.data = data :=
    ⟨⟨data, reply.len, hsize.trans_le reply.max_le⟩, SosBuffer.store_of_mem hdata rfl, rfl⟩
  have hbuild : (sosdHandleGuidBlock commRank blockFrom blockTo).build = some m := hbuild
  rw [sosSendToDaemon, hreply]
  simp only [Option.bind_eq_bind, Option.bind_some, hbuild, hlen, Int.toNat_natCast, hstore]
  refine unpackBlock_of_holds header ?_ ?_
  · rw [SosBuffer.max, SosBuffer.setLen_data, hkept, hsize]
    change 40 ≤ reply.max
    omega
  · rw [SosBuffer.setLen_data, hkept, ← htake]
    exact Mem.holds_of_store hdata

/-- **A failure is unpacked as a block from zero to zero.** -/
theorem unpackBlock_failed (commRank : CInt) :
    ((sosSendToDaemon commRank .failed).bind unpackBlock) = some ⟨0, 0⟩ := by
  obtain ⟨reply, hreply⟩ := bufferOfSize_eq sosDefaultBufferMax ⟨by decide, by decide⟩
  obtain ⟨hmax, -, hzero⟩ := bufferOfSize_some hreply
  have hmax : reply.max = 4096 := by exact_mod_cast hmax.symm
  have hdata : reply.data = List.replicate 4096 0 := List.eq_replicate_iff.mpr ⟨hmax, hzero⟩
  have henc : (SosMsgHeader.mk 0 0 0 0).enc ++ (encAll [.g 0] ++ encAll [.g 0]) =
      List.replicate 40 0 := rfl
  rw [sosSendToDaemon, hreply]
  refine unpackBlock_of_holds ⟨0, 0, 0, 0⟩ (by omega) ?_
  rw [henc, hdata]
  exact ⟨List.replicate 4056 0, rfl⟩

/-- **The pool after a request** that came to what it came to. -/
theorem sosUidRefresh_eq (asker : Asker) (id : SosUid) (r : Refill) :
    sosUidRefresh asker id r =
      some (if asker.offlineTestMode then id.advance else r.pool) := by
  have hunpack : ((sosSendToDaemon asker.commRank r).bind unpackBlock) = some r.pool := by
    cases r with
    | answered blockFrom blockTo => exact unpackBlock_answered asker.commRank blockFrom blockTo
    | failed => exact unpackBlock_failed asker.commRank
  obtain ⟨reply, hreply, hblock⟩ := Option.bind_eq_some_iff.mp hunpack
  rw [sosUidRefresh, hreply]
  simp only [Option.bind_eq_bind, Option.bind_some, hblock]
  split
  · rfl
  · rfl

/-! ## The calls on one pool -/

/-- A client's pool, and what `SOS_uid_next` has returned of it. -/
structure ClientPool where
  pool : SosUid
  returned : List SosGuid

/-- **One call of `SOS_uid_next`**, with what came of its request if it makes
one. -/
def ClientPool.step (asker : Asker) (s : ClientPool) (r : Option Refill) : Option ClientPool :=
  match sosUidNextClient s.pool, r with
  | .done serial pool, none => some ⟨pool, s.returned ++ [serial]⟩
  | .refresh serial, some r =>
      (sosUidRefresh asker s.pool r).map fun pool => ⟨pool, s.returned ++ [serial]⟩
  | _, _ => none

end

/-- The blocks the requests were answered with, as pools. -/
def answeredBlocks (calls : List (Option Refill)) : List SosUid :=
  calls.filterMap fun
    | some (.answered blockFrom blockTo) => some ⟨blockFrom, blockTo⟩
    | _ => none

/-- **Fresh blocks**: each counts without wrapping, and nothing can be drawn from
two of them, nor from one of them and the pool the client starts with. -/
structure FreshBlocks (pool : SosUid) (calls : List (Option Refill)) : Prop where
  bounded : ∀ id ∈ pool :: answeredBlocks calls, id.Bounded
  apart : (pool :: answeredBlocks calls).Pairwise fun id id' => ∀ g, Drawn id g → ¬ Drawn id' g

/-- **What `SOS_uid_next` owes its callers.** -/
def UniqueSerials (returned : List SosGuid) : Prop := returned.Nodup ∧ 0 ∉ returned

/-- **The client never depends on a request that failed**: only the last call's may
have. In `offline_test_mode`, where no reply is read, it makes fewer calls
than there are values up to the wrap. -/
def RefillsHold (asker : Asker) (pool : SosUid) (calls : List (Option Refill)) : Prop :=
  if asker.offlineTestMode then pool.next.toNat + calls.length ≤ 2 ^ 64
  else some Refill.failed ∉ calls.dropLast

instance (asker : Asker) (pool : SosUid) (calls : List (Option Refill)) :
    Decidable (RefillsHold asker pool calls) := by
  unfold RefillsHold
  infer_instance

variable {asker : Asker} {s s' : ClientPool} {r : Option Refill} {calls : List (Option Refill)}

/-! ## Pools and blocks to come -/

/-- **The pool and the blocks to come are fresh**, and nothing that was returned can
be drawn from them. -/
structure ClientPool.Inv (s : ClientPool) (calls : List (Option Refill)) : Prop where
  fresh : FreshBlocks s.pool calls
  unique : UniqueSerials s.returned
  gone : ∀ id ∈ s.pool :: answeredBlocks calls, ∀ g, Drawn id g → g ∉ s.returned

/-- A value that comes from the pool is a new one. -/
theorem ClientPool.Inv.unique_append (h : s.Inv calls) :
    UniqueSerials (s.returned ++ [s.pool.next]) := by
  have hpos := (h.fresh.bounded s.pool (List.mem_cons_self ..)).pos
  have hnew := h.gone s.pool (List.mem_cons_self ..) _ (SosUid.drawn_next s.pool)
  obtain ⟨hnodup, hzero⟩ := h.unique
  constructor
  · refine List.nodup_append.mpr ⟨hnodup, List.nodup_singleton _, fun g hg g' hg' hsame => ?_⟩
    rw [List.mem_singleton.mp hg'] at hsame
    exact hnew (hsame ▸ hg)
  · intro hmem
    rcases List.mem_append.mp hmem with hmem | hmem
    · exact hzero hmem
    · rw [← List.mem_singleton.mp hmem] at hpos
      exact absurd hpos (by decide)

/-- **A call that takes another value of its block.** -/
theorem ClientPool.Inv.advance (h : s.Inv (none :: calls)) (hspent : s.pool.advance.spent = false) :
    ClientPool.Inv ⟨s.pool.advance, s.returned ++ [s.pool.next]⟩ calls := by
  have hblocks : answeredBlocks (none :: calls) = answeredBlocks calls := rfl
  have hnext := h.unique_append
  obtain ⟨⟨hbounded, hapart⟩, -, hgone⟩ := h
  rw [hblocks] at hbounded hapart hgone
  have hpool := hbounded s.pool (List.mem_cons_self ..)
  have hadvance := SosUid.toNat_advance hpool
  have hlast : s.pool.advance.last = s.pool.last := rfl
  have hlt : s.pool.next.toNat < s.pool.last.toNat := by
    have hnot : ¬ s.pool.advance.spent = true := by rw [hspent]; exact Bool.false_ne_true
    rw [SosUid.spent_iff, hadvance, hlast] at hnot
    omega
  have hafter := SosUid.bounded_advance hpool hlt.le
  -- what is still drawn was drawn before, and is behind the cursor
  have hdrawn : ∀ g, Drawn s.pool.advance g → Drawn s.pool g ∧ g ≠ s.pool.next := by
    intro g hg
    rw [SosUid.drawn_iff hafter, hadvance, hlast] at hg
    refine ⟨(SosUid.drawn_iff hpool).mpr ⟨by omega, by omega⟩, ?_⟩
    rintro rfl
    omega
  rw [List.pairwise_cons] at hapart
  refine ⟨⟨?_, List.pairwise_cons.mpr ⟨fun id hid g hg => ?_, hapart.2⟩⟩, hnext, ?_⟩
  · intro id hid
    rcases List.mem_cons.mp hid with rfl | hid
    · exact hafter
    · exact hbounded id (List.mem_cons_of_mem _ hid)
  · exact hapart.1 id hid g (hdrawn g hg).1
  · intro id hid g hg hmem
    rcases List.mem_append.mp hmem with hmem | hmem
    · rcases List.mem_cons.mp hid with rfl | hid
      · exact hgone _ (List.mem_cons_self ..) g (hdrawn g hg).1 hmem
      · exact hgone id (List.mem_cons_of_mem _ hid) g hg hmem
    · obtain rfl := List.mem_singleton.mp hmem
      rcases List.mem_cons.mp hid with rfl | hid
      · exact (hdrawn _ hg).2 rfl
      · exact hapart.1 id hid _ (SosUid.drawn_next s.pool) hg

/-- **A call that goes on with a new block.** -/
theorem ClientPool.Inv.answered {blockFrom blockTo : SosGuid}
    (h : s.Inv (some (.answered blockFrom blockTo) :: calls)) :
    ClientPool.Inv ⟨⟨blockFrom, blockTo⟩, s.returned ++ [s.pool.next]⟩ calls := by
  have hblocks : answeredBlocks (some (.answered blockFrom blockTo) :: calls) =
      ⟨blockFrom, blockTo⟩ :: answeredBlocks calls := rfl
  have hnext := h.unique_append
  obtain ⟨⟨hbounded, hapart⟩, -, hgone⟩ := h
  rw [hblocks] at hbounded hapart hgone
  rw [List.pairwise_cons] at hapart
  refine ⟨⟨fun id hid => hbounded id (List.mem_cons_of_mem _ hid), hapart.2⟩, hnext, ?_⟩
  intro id hid g hg hmem
  rcases List.mem_append.mp hmem with hmem | hmem
  · exact hgone id (List.mem_cons_of_mem _ hid) g hg hmem
  · obtain rfl := List.mem_singleton.mp hmem
    exact hapart.1 id hid _ (SosUid.drawn_next s.pool) hg

/-- Values counted up from above zero are new, and none is zero, up to the wrap. -/
theorem uniqueSerials_counted_iff {next : SosGuid} {n : ℕ} (hpos : 0 < next.toNat) :
    UniqueSerials ((List.range n).map fun i => next + BitVec.ofNat 64 i) ↔
      next.toNat + n ≤ 2 ^ 64 := by
  have hlt := next.isLt
  have hvalue : ∀ i, next.toNat + i ≤ 2 ^ 64 →
      (next + BitVec.ofNat 64 i).toNat = (next.toNat + i) % 2 ^ 64 := by
    intro i hi
    rw [BitVec.toNat_add, BitVec.toNat_ofNat, Nat.mod_eq_of_lt (a := i) (by omega)]
  constructor
  · rintro ⟨-, hzero⟩
    by_contra hwrap
    refine hzero (List.mem_map.mpr ⟨2 ^ 64 - next.toNat, List.mem_range.mpr (by omega), ?_⟩)
    apply BitVec.eq_of_toNat_eq
    rw [hvalue _ (by omega), Nat.add_sub_cancel' (by omega), Nat.mod_self]
    rfl
  · intro hle
    constructor
    · refine List.Nodup.map_on (fun i hi j hj hsame => ?_) List.nodup_range
      rw [List.mem_range] at hi hj
      have hsame := congrArg BitVec.toNat hsame
      rw [hvalue i (by omega), hvalue j (by omega), Nat.mod_eq_of_lt (by omega),
        Nat.mod_eq_of_lt (by omega)] at hsame
      omega
    · intro hzero
      obtain ⟨i, hi, hi0⟩ := List.mem_map.mp hzero
      rw [List.mem_range] at hi
      have hi0 := congrArg BitVec.toNat hi0
      rw [hvalue i (by omega), Nat.mod_eq_of_lt (by omega)] at hi0
      change next.toNat + i = 0 at hi0
      omega

section

variable [DoubleCodec]

/-! ## One call -/

/-- A call that needs no other block. -/
theorem ClientPool.step_done (asker : Asker) (s : ClientPool) (h : s.pool.advance.spent = false) :
    ClientPool.step asker s none = some ⟨s.pool.advance, s.returned ++ [s.pool.next]⟩ := by
  have hclient : sosUidNextClient s.pool = .done s.pool.next s.pool.advance := by
    rw [sosUidNextClient, h, if_neg Bool.false_ne_true]
  simp only [ClientPool.step, hclient]

/-- A call that asks for another. -/
theorem ClientPool.step_refresh (asker : Asker) (s : ClientPool) (f : Refill)
    (h : s.pool.advance.spent = true) :
    ClientPool.step asker s (some f) =
      some ⟨if asker.offlineTestMode then s.pool.advance else f.pool,
        s.returned ++ [s.pool.next]⟩ := by
  have hclient : sosUidNextClient s.pool = .refresh s.pool.next := by
    rw [sosUidNextClient, h, if_pos rfl]
  simp only [ClientPool.step, hclient, sosUidRefresh_eq, Option.map_some]

/-- **What one call does**: it returns the value in front, and goes on with the rest
of its block or with what it finds in the reply. -/
theorem ClientPool.step_some (h : ClientPool.step asker s r = some s') :
    s'.returned = s.returned ++ [s.pool.next] ∧
      ((r = none ∧ s.pool.advance.spent = false ∧ s'.pool = s.pool.advance) ∨
        ∃ f, r = some f ∧ s.pool.advance.spent = true ∧
          s'.pool = if asker.offlineTestMode then s.pool.advance else f.pool) := by
  cases hspent : s.pool.advance.spent with
  | false =>
      cases r with
      | none =>
          obtain rfl := Option.some.inj ((ClientPool.step_done asker s hspent).symm.trans h)
          exact ⟨rfl, .inl ⟨rfl, rfl, rfl⟩⟩
      | some f => simp [ClientPool.step, sosUidNextClient, hspent] at h
  | true =>
      cases r with
      | none => simp [ClientPool.step, sosUidNextClient, hspent] at h
      | some f =>
          obtain rfl := Option.some.inj ((ClientPool.step_refresh asker s f hspent).symm.trans h)
          exact ⟨rfl, .inr ⟨f, rfl, rfl, rfl⟩⟩

/-- The values are returned one behind the other. -/
theorem ClientPool.mem_returned_of_run (hrun : Trace.run (ClientPool.step asker) s calls = some s')
    {g : SosGuid} (hg : g ∈ s.returned) : g ∈ s'.returned := by
  have hkeep : ∀ (s : ClientPool) r s', g ∈ s.returned → ClientPool.step asker s r = some s' →
      g ∈ s'.returned := by
    intro s r s' hs hstep
    rw [(ClientPool.step_some hstep).1]
    exact List.mem_append_left _ hs
  exact Trace.run_preserves hkeep hg hrun

/-! ## The calls of a run -/

/-- **The run**: from a state in order, what was returned at the end is unique
as long as no request but the last call's failed. -/
theorem ClientPool.unique_of_run (honline : asker.offlineTestMode = false) (h : s.Inv calls)
    (hrefills : some Refill.failed ∉ calls.dropLast)
    (hrun : Trace.run (ClientPool.step asker) s calls = some s') : UniqueSerials s'.returned := by
  induction calls generalizing s with
  | nil =>
      obtain rfl := Option.some.inj hrun
      exact h.unique
  | cons r calls ih =>
      obtain ⟨s₁, hstep, hrest⟩ := Trace.run_cons_some hrun
      obtain ⟨hreturned, hpool⟩ := ClientPool.step_some hstep
      have hnext := h.unique_append
      rw [← hreturned] at hnext
      cases calls with
      | nil =>
          obtain rfl := Option.some.inj hrest
          exact hnext
      | cons r' calls =>
          rw [List.dropLast_cons_cons, List.mem_cons, not_or] at hrefills
          have hafter : s₁.Inv (r' :: calls) := by
            obtain ⟨pool, returned⟩ := s₁
            obtain rfl := hreturned
            rcases hpool with ⟨rfl, hspent, rfl⟩ | ⟨f, rfl, -, hpool⟩
            · exact h.advance hspent
            · rw [honline, if_neg Bool.false_ne_true] at hpool
              obtain rfl := hpool
              cases f with
              | answered blockFrom blockTo => exact h.answered
              | failed => exact absurd rfl hrefills.1
          exact ih hafter hrefills.2 hrest

/-! ## Where one is -/

/-- **After a failed request the next call returns zero.** -/
theorem ClientPool.zero_mem_of_run (honline : asker.offlineTestMode = false)
    (hfailed : some Refill.failed ∈ calls.dropLast)
    (hrun : Trace.run (ClientPool.step asker) s calls = some s') : 0 ∈ s'.returned := by
  induction calls generalizing s with
  | nil => exact absurd hfailed List.not_mem_nil
  | cons r calls ih =>
      obtain ⟨s₁, hstep, hrest⟩ := Trace.run_cons_some hrun
      cases calls with
      | nil => exact absurd hfailed List.not_mem_nil
      | cons r' calls =>
          rw [List.dropLast_cons_cons, List.mem_cons] at hfailed
          rcases hfailed with rfl | hfailed
          · obtain ⟨-, hpool⟩ := ClientPool.step_some hstep
            obtain ⟨s₂, hstep₂, hrest⟩ := Trace.run_cons_some hrest
            apply ClientPool.mem_returned_of_run hrest
            rw [(ClientPool.step_some hstep₂).1]
            rcases hpool with ⟨hr, -⟩ | ⟨f, hr, -, hpool⟩
            · cases hr
            · obtain rfl := Option.some.inj hr
              rw [honline, if_neg Bool.false_ne_true] at hpool
              rw [hpool]
              exact List.mem_append_right _ (List.mem_cons_self ..)
          · exact ih hfailed hrest

/-! ## In `offline_test_mode` -/

/-- **Without replies the values are counted up**, past the end of the pool and
through zero. -/
theorem ClientPool.returned_offline (hoffline : asker.offlineTestMode = true)
    (hrun : Trace.run (ClientPool.step asker) s calls = some s') :
    s'.returned = s.returned ++
      (List.range calls.length).map fun i => s.pool.next + BitVec.ofNat 64 i := by
  induction calls generalizing s with
  | nil =>
      obtain rfl := Option.some.inj hrun
      exact (List.append_nil _).symm
  | cons r calls ih =>
      obtain ⟨s₁, hstep, hrest⟩ := Trace.run_cons_some hrun
      obtain ⟨hreturned, hpool⟩ := ClientPool.step_some hstep
      have hnext : s₁.pool.next = s.pool.next + 1 := by
        rcases hpool with ⟨-, -, hpool⟩ | ⟨f, -, -, hpool⟩
        · rw [hpool]
          rfl
        · rw [hpool, hoffline, if_pos rfl]
          rfl
      have hfun : (fun i => s.pool.next + 1 + BitVec.ofNat 64 i) =
          (fun i => s.pool.next + BitVec.ofNat 64 i) ∘ Nat.succ := by
        funext i
        change _ = s.pool.next + BitVec.ofNat 64 (i + 1)
        rw [BitVec.ofNat_add, BitVec.add_assoc, BitVec.add_comm 1]
        rfl
      rw [ih hrest, hreturned, hnext, List.length_cons, List.range_succ_eq_map, List.map_cons,
        List.map_map, hfun, List.append_assoc, List.singleton_append,
        show s.pool.next + BitVec.ofNat 64 0 = s.pool.next from BitVec.add_zero _]

/-- **No value comes twice and none is zero exactly when no failed request is
depended on**, whatever the daemon answers, as long as its blocks are fresh. -/
theorem uidNext_unique_iff {pool : SosUid} (hfresh : FreshBlocks pool calls)
    (hrun : Trace.run (ClientPool.step asker) ⟨pool, []⟩ calls = some s) :
    UniqueSerials s.returned ↔ RefillsHold asker pool calls := by
  have hpos := (hfresh.bounded pool (List.mem_cons_self ..)).pos
  cases hmode : asker.offlineTestMode with
  | true =>
      rw [ClientPool.returned_offline hmode hrun, List.nil_append, RefillsHold, if_pos hmode]
      exact uniqueSerials_counted_iff hpos
  | false =>
      rw [RefillsHold, if_neg (by rw [hmode]; exact Bool.false_ne_true)]
      constructor
      · rintro ⟨-, hzero⟩ hfailed
        exact hzero (ClientPool.zero_mem_of_run hmode hfailed hrun)
      · intro hrefills
        have hinv : ClientPool.Inv ⟨pool, []⟩ calls :=
          ⟨hfresh, ⟨List.nodup_nil, List.not_mem_nil⟩, fun _ _ _ _ => List.not_mem_nil⟩
        exact ClientPool.unique_of_run hmode hinv hrefills hrun

end

/-- A client with one value left is answered, and takes one of its new block. -/
theorem uidNext_unique_answered :
    letI := DoubleCodec.bits
    ∃ s, Trace.run (ClientPool.step ⟨false, 0⟩) ⟨⟨3, 3⟩, []⟩ [some (.answered 7 9), none] = some s ∧
      UniqueSerials s.returned := by
  let _ := DoubleCodec.bits
  obtain ⟨s, hs⟩ : ∃ s, Trace.run (ClientPool.step ⟨false, 0⟩) ⟨⟨3, 3⟩, []⟩
      [some (.answered 7 9), none] = some s := by
    have hfirst : ClientPool.step ⟨false, 0⟩ ⟨⟨3, 3⟩, []⟩ (some (.answered 7 9)) =
        some ⟨⟨7, 9⟩, [3]⟩ := ClientPool.step_refresh _ _ _ (by decide)
    have hsecond : ClientPool.step ⟨false, 0⟩ ⟨⟨7, 9⟩, [3]⟩ none = some ⟨⟨8, 9⟩, [3, 7]⟩ :=
      ClientPool.step_done _ _ (by decide)
    refine ⟨⟨⟨8, 9⟩, [3, 7]⟩, ?_⟩
    rw [Trace.run_cons, hfirst, Option.bind_some, Trace.run_cons, hsecond]
    rfl
  have hfresh : FreshBlocks ⟨3, 3⟩ [some (.answered 7 9), none] := by
    have hpool : (SosUid.mk 3 3).Bounded := ⟨by decide, by decide, by decide⟩
    have hblock : (SosUid.mk 7 9).Bounded := ⟨by decide, by decide, by decide⟩
    refine ⟨fun id hid => ?_, List.pairwise_pair.mpr fun g hg hg' => ?_⟩
    · simp only [answeredBlocks, List.filterMap_cons, List.filterMap_nil, List.mem_cons,
        List.not_mem_nil, or_false] at hid
      rcases hid with rfl | rfl
      · exact hpool
      · exact hblock
    · rw [SosUid.drawn_iff hpool] at hg
      rw [SosUid.drawn_iff hblock] at hg'
      change 3 ≤ g.toNat ∧ g.toNat ≤ 3 at hg
      change 7 ≤ g.toNat ∧ g.toNat ≤ 9 at hg'
      omega
  exact ⟨s, hs, (uidNext_unique_iff hfresh hs).mpr (by decide)⟩

/-- **A client returns zero**: the request it makes with its last value fails. -/
theorem not_uidNext_unique :
    letI := DoubleCodec.bits
    ∃ asker pool calls s, FreshBlocks pool calls ∧
      Trace.run (ClientPool.step asker) ⟨pool, []⟩ calls = some s ∧ ¬ UniqueSerials s.returned := by
  let _ := DoubleCodec.bits
  refine ⟨⟨false, 0⟩, ⟨3, 3⟩, [some .failed, some .failed], ⟨⟨0, 0⟩, [3, 0]⟩, ?_, ?_, ?_⟩
  · refine ⟨fun id hid => ?_, List.pairwise_singleton ..⟩
    obtain rfl := List.mem_singleton.mp hid
    exact ⟨by decide, by decide, by decide⟩
  · have hfirst : ClientPool.step ⟨false, 0⟩ ⟨⟨3, 3⟩, []⟩ (some .failed) = some ⟨⟨0, 0⟩, [3]⟩ :=
      ClientPool.step_refresh _ _ _ (by decide)
    have hsecond : ClientPool.step ⟨false, 0⟩ ⟨⟨0, 0⟩, [3]⟩ (some .failed) =
        some ⟨⟨0, 0⟩, [3, 0]⟩ := ClientPool.step_refresh _ _ _ (by decide)
    rw [Trace.run_cons, hfirst, Option.bind_some, Trace.run_cons, hsecond]
    rfl
  · rintro ⟨-, hzero⟩
    exact hzero (by simp)

end SosFlow
