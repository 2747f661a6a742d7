import SosFlow.Guid.Uid

/-!
# The blocks a pool is cut into

A daemon serves the requests for guids of all its clients from one pool,
and a client draws from the block it was given until it asks for the next.
What it can draw is the block, and always its first value, which it takes
before it looks at the end: from the block `(last + 1, last)` that a pool
with nothing left answers with, `last + 1` can be drawn, each time.

The blocks are in order as long as the pool outlasts all claims but the
last, which may take what is left.
-/

namespace SosFlow

/-! ## What a client draws -/

/-- **A client draws a guid** from its pool, before it gets another block. -/
inductive Drawn : SosUid → SosGuid → Prop
  | next {id id' : SosUid} {serial : SosGuid} (h : sosUidNextClient id = .done serial id') :
      Drawn id serial
  | final {id : SosUid} {serial : SosGuid} (h : sosUidNextClient id = .refresh serial) :
      Drawn id serial
  | later {id id' : SosUid} {serial g : SosGuid} (h : sosUidNextClient id = .done serial id')
      (hrest : Drawn id' g) : Drawn id g

/-- **A guid can be drawn from a block**: in the pool `SOS_init` makes of it, or in
the pool that `SOS_uid_next` moves to it. -/
def DrawnFrom (block : SosGuid × SosGuid) (g : SosGuid) : Prop :=
  Drawn (sosUidInit block.1 block.2) g ∨ Drawn ⟨block.1, block.2⟩ g

namespace SosUid

variable {id : SosUid} {g : SosGuid}

/-- The first value is always drawn. -/
theorem drawn_next (id : SosUid) : Drawn id id.next := by
  by_cases hspent : id.advance.spent = true
  · exact .final (by rw [sosUidNextClient, if_pos hspent])
  · have hdone : sosUidNextClient id = .done id.next id.advance := by
      rw [sosUidNextClient, if_neg hspent]
    exact .next hdone

/-- What a client's pool that counts hands out, and when it goes on. -/
theorem sosUidNextClient_eq (h : id.Bounded) :
    sosUidNextClient id =
      if id.next.toNat < id.last.toNat then .done id.next id.advance else .refresh id.next := by
  have hadvance := toNat_advance h
  have hlast : id.advance.last = id.last := rfl
  have hspent : id.advance.spent = true ↔ ¬ id.next.toNat < id.last.toNat := by
    rw [spent_iff, hadvance, hlast]
    omega
  by_cases hlt : id.next.toNat < id.last.toNat
  · rw [sosUidNextClient, if_neg (by rw [hspent]; omega), if_pos hlt]
  · rw [sosUidNextClient, if_pos (hspent.mpr hlt), if_neg hlt]

theorem bounded_advance (h : id.Bounded) (hlt : id.next.toNat ≤ id.last.toNat) :
    id.advance.Bounded := by
  have hadvance := toNat_advance h
  have hlast : id.advance.last = id.last := rfl
  have hmax := h.last_le
  refine ⟨by omega, by rw [hadvance, hlast]; omega, by rw [hlast]; omega⟩

/-- **The values a pool gives** are the ones it holds, and its next. -/
theorem drawn_iff (h : id.Bounded) :
    Drawn id g ↔ id.next.toNat ≤ g.toNat ∧ g.toNat ≤ max id.next.toNat id.last.toNat := by
  constructor
  · intro hdrawn
    induction hdrawn with
    | @next id id' serial hnext =>
        rw [sosUidNextClient_eq h] at hnext
        split at hnext
        · obtain ⟨rfl, -⟩ := ClientNext.done.inj hnext
          omega
        · cases hnext
    | @final id serial hfinal =>
        rw [sosUidNextClient_eq h] at hfinal
        split at hfinal
        · cases hfinal
        · obtain rfl := ClientNext.refresh.inj hfinal
          omega
    | @later id id' serial g hnext hrest ih =>
        rw [sosUidNextClient_eq h] at hnext
        split at hnext
        next hlt =>
          obtain ⟨-, rfl⟩ := ClientNext.done.inj hnext
          have hadvance := toNat_advance h
          have hlast : id.advance.last = id.last := rfl
          have hin := ih (bounded_advance h (by omega))
          rw [hadvance, hlast] at hin
          omega
        next => cases hnext
  · rintro ⟨hlow, hhigh⟩
    -- by how far the value is from the cursor
    obtain ⟨k, hk⟩ : ∃ k, g.toNat = id.next.toNat + k := ⟨g.toNat - id.next.toNat, by omega⟩
    induction k generalizing id with
    | zero =>
        obtain rfl : g = id.next := BitVec.eq_of_toNat_eq (by omega)
        exact drawn_next id
    | succ k ih =>
        have hlt : id.next.toNat < id.last.toNat := by omega
        have hadvance := toNat_advance h
        have hlast : id.advance.last = id.last := rfl
        have hnext : sosUidNextClient id = .done id.next id.advance := by
          rw [sosUidNextClient_eq h, if_pos hlt]
        refine .later hnext (ih (bounded_advance h (by omega)) ?_ ?_ ?_)
        · omega
        · rw [hadvance, hlast]
          omega
        · omega

end SosUid

/-- **From a block that holds something** its values are drawn, in either pool. -/
theorem drawnFrom_iff {blockFrom blockTo g : SosGuid} (hpos : 0 < blockFrom.toNat)
    (hle : blockFrom.toNat ≤ blockTo.toNat) (hmax : blockTo.toNat ≤ llongMax) :
    DrawnFrom (blockFrom, blockTo) g ↔
      blockFrom.toNat ≤ g.toNat ∧ g.toNat ≤ blockTo.toNat := by
  have hbounded : (SosUid.mk blockFrom blockTo).Bounded := ⟨hpos, Nat.le_succ_of_le hle, hmax⟩
  rw [DrawnFrom, sosUidInit_of_pos hpos hmax, or_self, SosUid.drawn_iff hbounded,
    Nat.max_eq_right hle]

/-! ## What a daemon hands out -/

/-- **A claim**: the pool it is made of, and the block it is answered with. -/
structure Claim where
  pool : SosUid
  block : SosGuid × SosGuid
deriving DecidableEq

/-- **The claims of a sequence of sizes**, one after the other from one pool. -/
def claims (id : SosUid) : List CInt → List Claim
  | [] => []
  | size :: sizes =>
      ⟨id, (sosdClaimGuidBlock id (size.signExtend 64)).1⟩ ::
        claims (sosdClaimGuidBlock id (size.signExtend 64)).2 sizes

/-- **The blocks are in order**: what clients draw from them was in the pool,
nothing is drawn from two of them, and nothing from the answer of a pool
with nothing left. -/
structure BlocksInOrder (pool : SosUid) (sizes : List CInt) : Prop where
  inside : ∀ c ∈ claims pool sizes, ∀ g, DrawnFrom c.block g → pool.next ≤ g ∧ g ≤ pool.last
  apart : (claims pool sizes).Pairwise fun c c' => ∀ g, DrawnFrom c.block g → ¬ DrawnFrom c'.block g
  unserved : ∀ c ∈ claims pool sizes, c.pool.last < c.pool.next → ∀ g, ¬ DrawnFrom c.block g

/-- **The pool outlasts the claims**: it still has a value when the last one is
made. -/
def Outlasts (pool : SosUid) (sizes : List CInt) : Prop :=
  sizes = [] ∨
    pool.next.toNat + (sizes.dropLast.map fun size => size.toNat + 1).sum ≤ pool.last.toNat

instance (pool : SosUid) (sizes : List CInt) : Decidable (Outlasts pool sizes) := by
  unfold Outlasts
  infer_instance

/-- The pools a `SOS_uid_init` makes end in the range. -/
theorem sosUidInit_bounds (setFrom setTo : SosGuid) :
    0 < (sosUidInit setFrom setTo).next.toNat ∧
      (sosUidInit setFrom setTo).last.toNat ≤ llongMax := by
  unfold sosUidInit
  constructor
  · simp only
    split
    case isTrue hpos => exact BitVec.lt_def.mp hpos
    case isFalse => decide
  · simp only
    split
    case isTrue hlt => exact Nat.le_of_lt (BitVec.lt_def.mp hlt)
    case isFalse => exact Nat.le_refl _

/-- The size of a positive request, as it is added to the cursor. -/
theorem toNat_signExtend_of_pos {size : CInt} (h : 0 < size.toInt) :
    (size.signExtend 64 : SosGuid).toNat = size.toNat ∧ size.toNat ≤ intMax := by
  have hsmall : size.toNat ≤ intMax := by
    have hlt := size.isLt
    rw [BitVec.toInt_eq_toNat_cond] at h
    unfold intMax
    split at h
    · omega
    · omega
  have hkept := toNat_signExtend_ofNat hsmall
  rw [BitVec.ofNat_toNat, BitVec.setWidth_eq] at hkept
  exact ⟨hkept, hsmall⟩

variable {id pool : SosUid} {size : CInt} {sizes : List CInt}

/-- The sum in a claim does not wrap. -/
theorem toNat_add_size (hsize : 0 < size.toInt) (hnext : id.next.toNat ≤ llongMax) :
    (id.next + size.signExtend 64).toNat = id.next.toNat + size.toNat := by
  obtain ⟨hkept, hsmall⟩ := toNat_signExtend_of_pos hsize
  unfold llongMax at hnext
  unfold intMax at hsmall
  rw [BitVec.toNat_add, hkept, Nat.mod_eq_of_lt]
  omega

/-- **A claim the pool has more than enough for** is its front. -/
theorem claim_of_le (hsize : 0 < size.toInt) (hmax : id.last.toNat ≤ llongMax)
    (hle : id.next.toNat + size.toNat ≤ id.last.toNat) :
    ∃ blockTo cursor, sosdClaimGuidBlock id (size.signExtend 64) =
        ((id.next, blockTo), ⟨cursor, id.last⟩) ∧
      blockTo.toNat = id.next.toNat + size.toNat ∧
      cursor.toNat = id.next.toNat + size.toNat + 1 := by
  have hto : (id.next + size.signExtend 64).toNat = _ := toNat_add_size hsize (by omega)
  have hfails : claimFails id (size.signExtend 64) = false := by
    rw [claimFails, decide_eq_false_iff_not, gt_iff_lt, BitVec.lt_def, hto]
    omega
  refine ⟨id.next + size.signExtend 64, id.next + size.signExtend 64 + 1, ?_, hto, ?_⟩
  · rw [sosdClaimGuidBlock, hfails]
    rfl
  · rw [SosUid.toNat_add_one, hto]
    omega

/-- **A claim the pool has not enough for** is all that is left. -/
theorem claim_of_lt (hsize : 0 < size.toInt) (hmax : id.last.toNat ≤ llongMax)
    (hnext : id.next.toNat ≤ id.last.toNat) (hlt : id.last.toNat < id.next.toNat + size.toNat) :
    sosdClaimGuidBlock id (size.signExtend 64) = ((id.next, id.last), ⟨id.last + 1, id.last⟩) := by
  have hto : (id.next + size.signExtend 64).toNat = _ := toNat_add_size hsize (by omega)
  have hfails : claimFails id (size.signExtend 64) = true := by
    rw [claimFails, decide_eq_true_iff, gt_iff_lt, BitVec.lt_def, hto]
    exact hlt
  rw [sosdClaimGuidBlock, hfails]
  rfl

/-- **A claim of a pool that has something** is a part of it, from the cursor on. -/
theorem claim_of_next (hsize : 0 < size.toInt) (hmax : id.last.toNat ≤ llongMax)
    (hnext : id.next.toNat ≤ id.last.toNat) :
    ∃ blockTo id', sosdClaimGuidBlock id (size.signExtend 64) = ((id.next, blockTo), id') ∧
      id.next.toNat ≤ blockTo.toNat ∧ blockTo.toNat ≤ id.last.toNat := by
  by_cases hle : id.next.toNat + size.toNat ≤ id.last.toNat
  · obtain ⟨blockTo, cursor, hclaim, hto, -⟩ := claim_of_le hsize hmax hle
    exact ⟨blockTo, _, hclaim, by omega, by omega⟩
  · exact ⟨id.last, _, claim_of_lt hsize hmax hnext (by omega), hnext, le_rfl⟩

@[simp] theorem claims_nil (id : SosUid) : claims id [] = [] := rfl

theorem claims_cons {block : SosGuid × SosGuid} {id' : SosUid}
    (h : sosdClaimGuidBlock id (size.signExtend 64) = (block, id')) :
    claims id (size :: sizes) = ⟨id, block⟩ :: claims id' sizes := by
  rw [claims, h]

/-- **Two claims need more than the first** of a pool that outlasts them. -/
theorem outlasts_cons_cons {size' : CInt} {cursor : SosGuid}
    (hcursor : cursor.toNat = id.next.toNat + size.toNat + 1) :
    Outlasts id (size :: size' :: sizes) ↔ Outlasts ⟨cursor, id.last⟩ (size' :: sizes) := by
  simp only [Outlasts, List.cons_ne_nil, false_or, List.dropLast_cons_cons, List.map_cons,
    List.sum_cons, hcursor]
  omega

/-- **While the pool lasts** every block is a part of it, and no two have a value
in common. -/
theorem claims_of_outlasts (hpos : 0 < id.next.toNat) (hmax : id.last.toNat ≤ llongMax)
    (hsizes : ∀ size ∈ sizes, 0 < size.toInt) (h : Outlasts id sizes) :
    (∀ c ∈ claims id sizes, c.pool.next.toNat ≤ c.pool.last.toNat ∧
      ∀ g, DrawnFrom c.block g → id.next.toNat ≤ g.toNat ∧ g.toNat ≤ id.last.toNat) ∧
    (claims id sizes).Pairwise fun c c' => ∀ g, DrawnFrom c.block g → ¬ DrawnFrom c'.block g := by
  induction sizes generalizing id with
  | nil => exact ⟨fun c hc => absurd hc (List.not_mem_nil), List.Pairwise.nil⟩
  | cons size sizes ih =>
      have hsize := hsizes size (by simp)
      cases sizes with
      | nil =>
          -- the last claim takes its block or all that is left
          have hnext : id.next.toNat ≤ id.last.toNat := by simpa [Outlasts] using h
          obtain ⟨blockTo, id', hclaim, hto⟩ := claim_of_next hsize hmax hnext
          rw [claims_cons hclaim, claims_nil]
          refine ⟨fun c hc => ?_, List.pairwise_singleton ..⟩
          obtain rfl := List.mem_singleton.mp hc
          refine ⟨hnext, fun g hg => ?_⟩
          rw [drawnFrom_iff hpos hto.1 (hto.2.trans hmax)] at hg
          omega
      | cons size' sizes =>
          have hroom : id.next.toNat + size.toNat + 1 ≤ id.last.toNat := by
            simp only [Outlasts, List.cons_ne_nil, false_or, List.dropLast_cons_cons,
              List.map_cons, List.sum_cons] at h
            omega
          obtain ⟨blockTo, cursor, hclaim, hto, hcursor⟩ := claim_of_le hsize hmax (by omega)
          have hin : ∀ g, DrawnFrom (id.next, blockTo) g →
              id.next.toNat ≤ g.toNat ∧ g.toNat < cursor.toNat := by
            intro g hg
            rw [drawnFrom_iff hpos (by omega) (by omega)] at hg
            omega
          rw [outlasts_cons_cons hcursor] at h
          have hpos' : 0 < (SosUid.mk cursor id.last).next.toNat := by simp only; omega
          obtain ⟨hrest, hapart⟩ := ih hpos' hmax
            (fun size hmem => hsizes size (by simp [hmem])) h
          rw [claims_cons hclaim]
          constructor
          · intro c hc
            rcases List.mem_cons.mp hc with rfl | hc
            · refine ⟨by simp only; omega, fun g hg => ?_⟩
              have hg := hin g hg
              omega
            · obtain ⟨hleft, hdraws⟩ := hrest c hc
              refine ⟨hleft, fun g hg => ?_⟩
              have hg := hdraws g hg
              simp only at hg
              omega
          · refine List.pairwise_cons.mpr ⟨fun c hc g hg hg' => ?_, hapart⟩
            have hbelow := hin g hg
            have habove := (hrest c hc).2 g hg'
            simp only at habove
            omega

/-- **When the pool does not last** a claim is made of nothing. -/
theorem exists_claim_of_not_outlasts (hpos : 0 < id.next.toNat) (hmax : id.last.toNat ≤ llongMax)
    (hsizes : ∀ size ∈ sizes, 0 < size.toInt) (h : ¬ Outlasts id sizes) :
    ∃ c ∈ claims id sizes, c.pool.last.toNat < c.pool.next.toNat := by
  induction sizes generalizing id with
  | nil => exact absurd (.inl rfl) h
  | cons size sizes ih =>
      have hsize := hsizes size (by simp)
      by_cases hnext : id.next.toNat ≤ id.last.toNat
      · cases sizes with
        | nil => exact absurd (.inr (by simpa using hnext)) h
        | cons size' sizes =>
            by_cases hle : id.next.toNat + size.toNat ≤ id.last.toNat
            · obtain ⟨blockTo, cursor, hclaim, -, hcursor⟩ := claim_of_le hsize hmax hle
              rw [outlasts_cons_cons hcursor] at h
              have hpos' : 0 < (SosUid.mk cursor id.last).next.toNat := by simp only; omega
              obtain ⟨c, hc, hspent⟩ := ih hpos' hmax
                (fun size hmem => hsizes size (by simp [hmem])) h
              exact ⟨c, by rw [claims_cons hclaim]; exact List.mem_cons_of_mem _ hc, hspent⟩
            · -- what is left goes to this claim, and the next one finds nothing
              rw [claims_cons (claim_of_lt hsize hmax hnext (by omega)), claims]
              refine ⟨_, List.mem_cons_of_mem _ (List.mem_cons_self ..), ?_⟩
              rw [SosUid.toNat_add_one (Nat.le_succ_of_le hmax)]
              exact Nat.lt_succ_self _
      · rw [claims]
        exact ⟨_, List.mem_cons_self .., by simp only; omega⟩

/-- **The blocks are in order exactly when the pool outlasts the claims.** A pool
with nothing left still answers with a block whose first value is drawn. -/
theorem blocksInOrder_iff {setFrom setTo : SosGuid} (hsizes : ∀ size ∈ sizes, 0 < size.toInt) :
    BlocksInOrder (sosUidInit setFrom setTo) sizes ↔ Outlasts (sosUidInit setFrom setTo) sizes := by
  obtain ⟨hpos, hmax⟩ := sosUidInit_bounds setFrom setTo
  constructor
  · intro h
    by_contra hshort
    obtain ⟨c, hc, hspent⟩ := exists_claim_of_not_outlasts hpos hmax hsizes hshort
    refine h.unserved c hc (BitVec.lt_def.mpr hspent) c.block.1 (.inr ?_)
    exact SosUid.drawn_next ⟨c.block.1, c.block.2⟩
  · intro h
    obtain ⟨hall, hapart⟩ := claims_of_outlasts hpos hmax hsizes h
    refine ⟨fun c hc g hg => ?_, hapart, fun c hc hspent => ?_⟩
    · obtain ⟨hlow, hhigh⟩ := (hall c hc).2 g hg
      exact ⟨BitVec.le_def.mpr hlow, BitVec.le_def.mpr hhigh⟩
    · exact absurd (BitVec.lt_def.mp hspent) (Nat.not_lt.mpr (hall c hc).1)

/-- Three claims of which the last takes what the others left. -/
theorem blocksInOrder_thirty : BlocksInOrder (sosUidInit 1 30) [9, 9, 100] :=
  (blocksInOrder_iff (by simp)).mpr (by decide +kernel)

/-- The second claim of a pool of ten finds nothing, and the client it answers
draws the eleventh. -/
theorem not_blocksInOrder :
    ∃ setFrom setTo, ∃ sizes : List CInt, (∀ size ∈ sizes, 0 < size.toInt) ∧
      ¬ BlocksInOrder (sosUidInit setFrom setTo) sizes := by
  refine ⟨1, 10, [100, 5], by simp, fun h => ?_⟩
  have hdrawn : DrawnFrom (11, 10) 11 := .inr (SosUid.drawn_next ⟨11, 10⟩)
  exact h.unserved ⟨⟨11, 10⟩, (11, 10)⟩ (by decide +kernel) (by decide) 11 hdrawn

end SosFlow
