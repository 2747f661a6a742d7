import SosFlow.Msg.Header

/-!
# Message bodies as packing calls

A builder packs its body with any number of calls of `SOS_buffer_pack` and
`SOS_buffer_pack_bytes`, each at the offset the one before it left.
`CallsFit` is the condition under which all of them fit, call by call with
the capacity the earlier ones have grown the buffer to. It is exactly the
condition under which the body ends up in the buffer
(`runCalls_of_fits`, `callsFit_of_holds`).
-/

namespace SosFlow

open Mem (Holds)

/-- **One packing call** of a builder: a format with its arguments, none of
them a raw block, or the bytes handed to `SOS_buffer_pack_bytes`. -/
inductive PackCall where
  | fields (fs : List Field) (h : ∀ f ∈ fs, ¬ f.IsBlock := by simp [Field.IsBlock])
  | bytes (source : List Byte)

namespace PackCall

/-- The bytes `SOS_buffer_pack_bytes` packs: a zero byte for none. -/
def payload (source : List Byte) : List Byte := if source.length < 1 then [0] else source

/-- The number of bytes the call packs. -/
def size : PackCall → ℕ
  | fields fs _ => sizeOf' fs
  | bytes source => 4 + (payload source).length

/-- The capacity after the growths of `SOS_buffer_pack_bytes`, in steps of
`SOS_DEFAULT_BUFFER_MAX` and one, until `need` exceeds it by at most one. -/
def bytesCapacity (max need : ℕ) : ℕ :=
  max + (sosDefaultBufferMax + 1) *
    ((need - (max + 1) + sosDefaultBufferMax) / (sosDefaultBufferMax + 1))

/-- The capacity the call writes with. -/
def capacity (max offset : ℕ) : PackCall → ℕ
  | fields fs _ => SosFlow.capacity max offset fs
  | bytes source =>
      bytesCapacity (if offset > max / 2 then max + (sosDefaultBufferMax + 1) else max)
        (offset + 4 + (payload source).length)

/-- **The call fits** the capacity it writes with. -/
def Fits (max offset : ℕ) (c : PackCall) : Prop :=
  c.capacity max offset ≤ intMax ∧ offset + c.size ≤ c.capacity max offset

instance (max offset : ℕ) (c : PackCall) : Decidable (c.Fits max offset) := by
  unfold Fits
  infer_instance

end PackCall

/-- **The calls of a body fit**, one after the other. -/
def CallsFit : ℕ → ℕ → List PackCall → Prop
  | _, _, [] => True
  | max, offset, c :: calls =>
      c.Fits max offset ∧ CallsFit (c.capacity max offset) (offset + c.size) calls

/-- The capacity after the growths of a body's calls. -/
def callsCapacity : ℕ → ℕ → List PackCall → ℕ
  | max, _, [] => max
  | max, offset, c :: calls =>
      callsCapacity (c.capacity max offset) (offset + c.size) calls

instance CallsFit.decidable : (max offset : ℕ) → (calls : List PackCall) →
    Decidable (CallsFit max offset calls)
  | _, _, [] => inferInstanceAs (Decidable True)
  | max, offset, c :: calls =>
      have := CallsFit.decidable (c.capacity max offset) (offset + c.size) calls
      inferInstanceAs (Decidable (_ ∧ _))

/-- In the lower half of a buffer nothing grows. -/
theorem PackCall.capacity_of_half {max offset : ℕ} {c : PackCall} (h : offset + c.size ≤ max / 2) :
    c.capacity max offset = max := by
  have hlower : ¬ offset > max / 2 := by omega
  cases c with
  | bytes source =>
      simp only [PackCall.size] at h
      simp only [PackCall.capacity, if_neg hlower, PackCall.bytesCapacity, sosDefaultBufferMax]
      omega
  | fields fs hblock =>
      rw [PackCall.capacity, SosFlow.capacity, if_neg hlower]
      cases fs with
      | nil => rfl
      | cons f rest =>
          cases f with
          | s v =>
              simp only [PackCall.size, sizeOf'_cons, Field.size] at h
              exact if_neg (by omega)
          | _ => rfl

/-- **A body that stays in the lower half of the buffer fits.** -/
theorem callsFit_of_half {max offset : ℕ} {calls : List PackCall} (hmax : max ≤ intMax)
    (h : offset + (calls.map PackCall.size).sum ≤ max / 2) : CallsFit max offset calls := by
  induction calls generalizing offset with
  | nil => trivial
  | cons c calls ih =>
      rw [List.map_cons, List.sum_cons] at h
      have hcap : c.capacity max offset = max := PackCall.capacity_of_half (by omega)
      refine ⟨⟨by rwa [hcap], by rw [hcap]; omega⟩, ?_⟩
      rw [hcap]
      exact ih (by omega)

/-- A body that stays in the lower half of the buffer grows nothing. -/
theorem callsCapacity_of_half {max offset : ℕ} {calls : List PackCall}
    (h : offset + (calls.map PackCall.size).sum ≤ max / 2) :
    callsCapacity max offset calls = max := by
  induction calls generalizing offset with
  | nil => rfl
  | cons c calls ih =>
      rw [List.map_cons, List.sum_cons] at h
      rw [callsCapacity, PackCall.capacity_of_half (by omega)]
      exact ih (by omega)

/-- The calls of a body fit in two parts. -/
theorem callsFit_append {max offset : ℕ} {first second : List PackCall} :
    CallsFit max offset (first ++ second) ↔ CallsFit max offset first ∧
      CallsFit (callsCapacity max offset first) (offset + (first.map PackCall.size).sum) second := by
  induction first generalizing max offset with
  | nil => simp [CallsFit, callsCapacity]
  | cons c first ih =>
      rw [List.map_cons, List.sum_cons, ← Nat.add_assoc]
      simp only [List.cons_append, CallsFit, callsCapacity, ih, and_assoc]

/-! ## The growth in front of a block of bytes -/

theorem growForBytes_some {need fuel : ℕ} {b b' : SosBuffer}
    (h : growForBytes need fuel b = some b') :
    b'.len = b.len ∧ (∃ n, b'.data = b.data ++ List.replicate n 0) ∧
      b'.max = PackCall.bytesCapacity b.max need := by
  induction fuel generalizing b with
  | zero => cases h
  | succ fuel ih =>
      rw [growForBytes] at h
      split at h
      case isTrue hneed =>
        obtain ⟨b₁, hgrow, hrest⟩ := Option.bind_eq_some_iff.mp h
        obtain ⟨hdata, hlen, hmax⟩ := sosBufferGrow_some hgrow
        obtain ⟨hlen', ⟨n, hdata'⟩, hmax'⟩ := ih hrest
        refine ⟨hlen'.trans hlen, ⟨sosDefaultBufferMax + 1 + n, ?_⟩, ?_⟩
        · rw [hdata', hdata, List.append_assoc, List.replicate_append_replicate]
        · rw [hmax', hmax]
          unfold PackCall.bytesCapacity sosDefaultBufferMax
          omega
      case isFalse hneed =>
        obtain rfl := Option.some.inj h
        refine ⟨rfl, ⟨0, by simp⟩, ?_⟩
        unfold PackCall.bytesCapacity sosDefaultBufferMax
        omega

/-- The loop ends within its fuel when the capacity it goes to is an `int`. -/
theorem growForBytes_eq {need fuel : ℕ} {b : SosBuffer}
    (hfuel : intMax < b.max + (sosDefaultBufferMax + 1) * fuel)
    (hcap : PackCall.bytesCapacity b.max need ≤ intMax) :
    ∃ b', growForBytes need fuel b = some b' := by
  induction fuel generalizing b with
  | zero =>
      have := b.max_le_intMax
      omega
  | succ fuel ih =>
      rw [growForBytes]
      split
      case isTrue hneed =>
        unfold PackCall.bytesCapacity sosDefaultBufferMax at hcap
        unfold sosDefaultBufferMax at hfuel
        obtain ⟨b₁, hb₁⟩ := sosBufferGrow_eq (b := b) (n := sosDefaultBufferMax) (by
          unfold sosDefaultBufferMax
          omega)
        have hmax := (sosBufferGrow_some hb₁).2.2
        unfold sosDefaultBufferMax at hmax
        rw [hb₁, Option.bind_some]
        apply ih
        · unfold sosDefaultBufferMax
          omega
        · unfold PackCall.bytesCapacity sosDefaultBufferMax
          omega
      case isFalse => exact ⟨b, rfl⟩

section

variable [DoubleCodec]

/-- The bytes the call packs. -/
def PackCall.enc : PackCall → List Byte
  | fields fs _ => encAll fs
  | bytes source => packi32 (BitVec.ofNat 32 (payload source).length) ++ payload source

@[simp] theorem PackCall.length_enc (c : PackCall) : c.enc.length = c.size := by
  cases c <;> simp [enc, size]

/-- The call made on a buffer. -/
def PackCall.run (b : SosBuffer) (offset : ℕ) : PackCall → Option PackResult
  | fields fs _ => packFields b offset fs
  | bytes source => sosBufferPackBytes b offset source

/-- The calls of a body, each at the offset the one before it left. -/
def runCalls (b : SosBuffer) (offset : ℕ) : List PackCall → Option (SosBuffer × ℕ)
  | [] => some (b, offset)
  | c :: calls => do
      let r ← c.run b offset
      runCalls r.buffer r.offset calls

/-- The bytes of a body. -/
def encCalls (calls : List PackCall) : List Byte := calls.flatMap PackCall.enc

@[simp] theorem encCalls_nil : encCalls [] = [] := rfl

@[simp] theorem encCalls_cons (c : PackCall) (calls : List PackCall) :
    encCalls (c :: calls) = c.enc ++ encCalls calls := rfl

theorem length_encCalls (calls : List PackCall) :
    (encCalls calls).length = (calls.map PackCall.size).sum := by
  simp [encCalls, List.length_flatMap]

/-! ## One call -/

variable {b : SosBuffer} {offset : ℕ} {c : PackCall} {calls : List PackCall} {r : PackResult}

/-- The two writes and the end of `SOS_buffer_pack_bytes`. -/
theorem sosBufferPackBytes_some {source : List Byte}
    (h : sosBufferPackBytes b offset source = some r) :
    (PackCall.bytes source).Fits b.max offset ∧
      PackedAt b offset (PackCall.bytes source).enc
        ((PackCall.bytes source).capacity b.max offset) r := by
  obtain ⟨b₁, hhalf, h⟩ := Option.bind_eq_some_iff.mp h
  obtain ⟨b₂, hgrow, h⟩ := Option.bind_eq_some_iff.mp h
  obtain ⟨st₁, hput₁, h⟩ := Option.bind_eq_some_iff.mp h
  obtain ⟨st₂, hput₂, h⟩ := Option.bind_eq_some_iff.mp h
  have hput : PackState.put ⟨b₂, offset, 0, 0⟩ (PackCall.bytes source).enc = some st₂ := by
    rw [PackCall.enc, PackState.put_append]
    exact Option.bind_eq_some_iff.mpr ⟨st₁, hput₁, hput₂⟩
  obtain ⟨⟨n₁, hdata₁⟩, hlen₁, hmax₁⟩ := growForOffset_some hhalf
  obtain ⟨hlen₂, ⟨n₂, hdata₂⟩, hmax₂⟩ := growForBytes_some hgrow
  obtain ⟨hdata, hlen, _, hpacked, _⟩ := PackState.put_some hput
  have hbound := PackState.put_bound hput
  have hmax := PackState.put_max hput
  have hcap : b₂.max = (PackCall.bytes source).capacity b.max offset := by
    rw [hmax₂, hmax₁]
    rfl
  rw [PackCall.length_enc, hcap] at hbound
  refine ⟨⟨hcap ▸ b₂.max_le_intMax, hbound⟩, ?_⟩
  unfold PackState.finish at h
  split at h
  case isTrue =>
    obtain rfl := Option.some.inj h
    simp only [Nat.zero_add] at hpacked
    refine ⟨hpacked, congrArg (offset + ·) hpacked, ?_, hmax.trans hcap, n₁ + n₂, ?_⟩
    · rw [SosBuffer.setLen_len, hlen, hlen₂, hlen₁, hpacked]
    · rw [List.replicate_add, ← List.append_assoc, ← hdata₁, ← hdata₂]
      exact hdata
  case isFalse => cases h

theorem sosBufferPackBytes_of_fits {source : List Byte}
    (h : (PackCall.bytes source).Fits b.max offset) :
    ∃ r, sosBufferPackBytes b offset source = some r := by
  obtain ⟨hcap, hroom⟩ := h
  have hsource := PackCall.length_enc (.bytes source)
  obtain ⟨b₁, hhalf⟩ : ∃ b₁, growForOffset b offset sosDefaultBufferMax = some b₁ := by
    unfold growForOffset
    split
    case isTrue hhalf =>
      simp only [PackCall.capacity, if_pos hhalf, PackCall.bytesCapacity] at hcap
      exact sosBufferGrow_eq (by omega)
    case isFalse => exact ⟨b, rfl⟩
  obtain ⟨_, _, hmax₁⟩ := growForOffset_some hhalf
  have hcap₁ : PackCall.bytesCapacity b₁.max (offset + 4 + (PackCall.payload source).length) =
      (PackCall.bytes source).capacity b.max offset := by
    rw [hmax₁]
    rfl
  have hfuel : intMax < b₁.max + (sosDefaultBufferMax + 1) * (intMax / sosDefaultBufferMax + 1) := by
    unfold intMax sosDefaultBufferMax
    omega
  obtain ⟨b₂, hgrow⟩ := growForBytes_eq hfuel (hcap₁.trans_le hcap)
  have hmax₂ := (growForBytes_some hgrow).2.2
  obtain ⟨st₂, hput⟩ := @PackState.put_eq ⟨b₂, offset, 0, 0⟩ (PackCall.bytes source).enc (by
    rw [hsource]
    change offset + _ ≤ b₂.max
    rw [hmax₂, hcap₁]
    exact hroom)
  obtain ⟨_, _, _, hpacked, _⟩ := PackState.put_some hput
  rw [PackCall.enc, PackState.put_append] at hput
  obtain ⟨st₁, hput₁, hput₂⟩ := Option.bind_eq_some_iff.mp hput
  have hfinish : ∃ r, st₂.finish offset = some r := by
    rw [PackState.finish, hpacked, hsource, Nat.zero_add, if_pos (hroom.trans hcap)]
    exact ⟨_, rfl⟩
  obtain ⟨r, hr⟩ := hfinish
  exact ⟨r, Option.bind_eq_some_iff.mpr ⟨b₁, hhalf, Option.bind_eq_some_iff.mpr ⟨b₂, hgrow,
    Option.bind_eq_some_iff.mpr ⟨st₁, hput₁, Option.bind_eq_some_iff.mpr ⟨st₂, hput₂, hr⟩⟩⟩⟩⟩

namespace PackCall

/-- The strings of the call have lengths an `int` can hold. -/
def Short : PackCall → Prop
  | fields fs _ => ∀ f ∈ fs, f.Short
  | bytes _ => True

omit [DoubleCodec] in
theorem short_of_size (h : c.size ≤ intMax) : c.Short := by
  cases c with
  | fields fs _ => exact SosFlow.short_of_size h
  | bytes source => trivial

/-- **A call that fits packs its bytes.** -/
theorem run_of_fits (h : c.Fits b.max offset) :
    ∃ r, c.run b offset = some r ∧ PackedAt b offset c.enc (c.capacity b.max offset) r := by
  cases c with
  | fields fs hblock => exact sosBufferPack_of_fits hblock h
  | bytes source =>
      obtain ⟨r, hr⟩ := sosBufferPackBytes_of_fits h
      exact ⟨r, hr, (sosBufferPackBytes_some hr).2⟩

/-- **A call that leaves its bytes in place did fit.** -/
theorem fits_of_holds {n : ℕ} (hshort : c.Short) (hrun : c.run b offset = some r)
    (hholds : Holds (r.buffer.data ++ List.replicate n 0) offset c.enc) :
    c.Fits b.max offset := by
  cases c with
  | fields fs hblock => exact SosFlow.fits_of_holds hblock hshort hrun hholds
  | bytes source => exact (sosBufferPackBytes_some hrun).1

/-- Any call keeps the bytes before its offset. -/
theorem run_keeps (hshort : c.Short) (hrun : c.run b offset = some r) :
    Mem.Keeps 0 offset b.data r.buffer.data := by
  cases c with
  | fields fs hblock => exact sosBufferPack_keeps hblock hshort hrun
  | bytes source =>
      obtain ⟨n, hstore⟩ := (sosBufferPackBytes_some hrun).2.data
      exact (Mem.keeps_append_replicate 0 offset b.data n).trans
        (Mem.keeps_of_store 0 hstore le_rfl)

/-- No call shrinks the buffer. -/
theorem run_max_le (hshort : c.Short) (hrun : c.run b offset = some r) :
    b.max ≤ r.buffer.max := by
  cases c with
  | fields fs hblock => exact sosBufferPack_max_le hblock hshort hrun
  | bytes source =>
      obtain ⟨n, hstore⟩ := (sosBufferPackBytes_some hrun).2.data
      have hsame := Mem.length_store hstore
      rw [List.length_append] at hsame
      change b.data.length ≤ r.buffer.data.length
      omega

/-- Any call moves the offset by the bytes it packs. -/
theorem run_offset (hshort : c.Short) (hrun : c.run b offset = some r) :
    r.offset = offset + c.size := by
  cases c with
  | fields fs hblock => exact sosBufferPack_offset hblock hshort hrun
  | bytes source =>
      rw [(sosBufferPackBytes_some hrun).2.newOffset, length_enc]

end PackCall

/-! ## The calls of a body -/

/-- **A body in place** behind an offset, in a buffer grown to `cap`. -/
structure BodyAt (b : SosBuffer) (offset : ℕ) (enc : List Byte) (cap : ℕ)
    (r : SosBuffer × ℕ) : Prop where
  newOffset : r.2 = offset + enc.length
  len : r.1.len = max b.len (offset + enc.length : ℕ)
  max : r.1.max = cap
  data : ∃ n, Mem.store (b.data ++ List.replicate n 0) offset enc = some r.1.data

omit [DoubleCodec] in
/-- **A call in front of a body in place.** -/
theorem PackedAt.append {enc rest : List Byte} {cap cap' : ℕ} {r' : SosBuffer × ℕ}
    (h : PackedAt b offset enc cap r) (h' : BodyAt r.buffer r.offset rest cap' r') :
    BodyAt b offset (enc ++ rest) cap' r' := by
  obtain ⟨n, hn⟩ := h.data
  obtain ⟨n', hn'⟩ := h'.data
  have hsum : offset + (enc ++ rest).length = r.offset + rest.length := by
    rw [h.newOffset, List.length_append, Nat.add_assoc]
  refine ⟨?_, ?_, h'.max, n + n', ?_⟩
  · rw [h'.newOffset, hsum]
  · rw [h'.len, h.len, hsum, ← h.newOffset]
    omega
  · rw [Mem.store_append, List.replicate_add, ← List.append_assoc,
      Mem.store_append_right hn, Option.bind_some, ← h.newOffset]
    exact hn'

/-- **Calls that fit pack the body**, behind what the buffer's `len` says is
there. -/
theorem runCalls_of_fits (hoff : offset ≤ b.max) (hlen : (offset : ℤ) ≤ b.len)
    (h : CallsFit b.max offset calls) :
    ∃ r, runCalls b offset calls = some r ∧
      BodyAt b offset (encCalls calls) (callsCapacity b.max offset calls) r := by
  induction calls generalizing b offset with
  | nil =>
      have hnil : Mem.store b.data offset [] = some b.data := by
        rw [Mem.store_eq hoff]
        simp
      exact ⟨(b, offset), rfl, rfl, (max_eq_left hlen).symm, rfl, 0, by simpa using hnil⟩
  | cons c calls ih =>
      obtain ⟨hc, hcalls⟩ := h
      obtain ⟨r, hrun, hr⟩ := PackCall.run_of_fits hc
      have hsize := hr.newOffset
      rw [PackCall.length_enc] at hsize
      rw [← hr.max, ← hsize] at hcalls
      obtain ⟨r', hrun', hr'⟩ := ih (by rw [hr.max, hsize]; exact hc.2)
        (by rw [hr.len, hr.newOffset]; exact le_max_right _ _) hcalls
      rw [hr.max, hsize] at hr'
      exact ⟨r', Option.bind_eq_some_iff.mpr ⟨r, hrun, hrun'⟩, hr.append (hsize ▸ hr')⟩

omit [DoubleCodec] in
/-- A body that grew nothing is a store into the old bytes. -/
theorem BodyAt.store {enc : List Byte} {r : SosBuffer × ℕ} (h : BodyAt b offset enc b.max r) :
    Mem.store b.data offset enc = some r.1.data :=
  PackedAt.store (r := ⟨r.1, r.2, enc.length⟩) ⟨rfl, h.newOffset, h.len, h.max, h.data⟩

/-- The calls of a body in two parts. -/
theorem runCalls_append (b : SosBuffer) (offset : ℕ) (first second : List PackCall) :
    runCalls b offset (first ++ second) =
      (runCalls b offset first).bind fun r => runCalls r.1 r.2 second := by
  induction first generalizing b offset with
  | nil => rfl
  | cons c first ih =>
      cases h : c.run b offset with
      | none => simp [runCalls, h]
      | some r => simp [runCalls, h, ih]

/-- The calls keep the bytes before their offset. -/
theorem runCalls_keeps {r : SosBuffer × ℕ} (hshort : ∀ c ∈ calls, c.Short)
    (hrun : runCalls b offset calls = some r) : Mem.Keeps 0 offset b.data r.1.data := by
  induction calls generalizing b offset with
  | nil =>
      obtain rfl := Option.some.inj hrun
      exact Mem.Keeps.refl 0 offset _
  | cons c calls ih =>
      obtain ⟨r₁, hfirst, hrest⟩ := Option.bind_eq_some_iff.mp hrun
      have hsize := PackCall.run_offset (hshort c (by simp)) hfirst
      exact (PackCall.run_keeps (hshort c (by simp)) hfirst).trans
        ((ih (fun c hc => hshort c (by simp [hc])) hrest).mono (by omega))

/-- The calls do not shrink the buffer. -/
theorem runCalls_max_le {r : SosBuffer × ℕ} (hshort : ∀ c ∈ calls, c.Short)
    (hrun : runCalls b offset calls = some r) : b.max ≤ r.1.max := by
  induction calls generalizing b offset with
  | nil =>
      obtain rfl := Option.some.inj hrun
      exact le_rfl
  | cons c calls ih =>
      obtain ⟨r₁, hfirst, hrest⟩ := Option.bind_eq_some_iff.mp hrun
      exact (PackCall.run_max_le (hshort c (by simp)) hfirst).trans
        (ih (fun c hc => hshort c (by simp [hc])) hrest)

omit [DoubleCodec] in
/-- No call is longer than the body. -/
theorem size_le_of_mem (hc : c ∈ calls) : c.size ≤ (calls.map PackCall.size).sum :=
  List.single_le_sum (fun _ _ => Nat.zero_le _) _ (List.mem_map_of_mem hc)

/-- What lies in a buffer has lengths an `int` can hold. -/
theorem short_of_holds (h : Holds b.data offset (encCalls calls)) : ∀ c ∈ calls, c.Short := by
  intro c hc
  have hsize := size_le_of_mem hc
  rw [← length_encCalls] at hsize
  apply PackCall.short_of_size
  by_cases hne : encCalls calls = []
  · rw [hne, List.length_nil] at hsize
    omega
  · have hbound := h.bound hne
    have hin := b.max_le
    omega

/-- **Calls that leave the body in place did fit.** -/
theorem callsFit_of_holds {r : SosBuffer × ℕ} (hshort : ∀ c ∈ calls, c.Short)
    (hrun : runCalls b offset calls = some r) (hholds : Holds r.1.data offset (encCalls calls)) :
    CallsFit b.max offset calls := by
  induction calls generalizing b offset with
  | nil => trivial
  | cons c calls ih =>
      obtain ⟨r₁, hfirst, hrest⟩ := Option.bind_eq_some_iff.mp hrun
      have hc := hshort c (by simp)
      have hcalls : ∀ c ∈ calls, c.Short := fun c hc => hshort c (by simp [hc])
      have hsize := PackCall.run_offset hc hfirst
      rw [encCalls_cons, Mem.holds_append, PackCall.length_enc, ← hsize] at hholds
      -- the later calls start behind this one, so what it left is what is held now
      have hkept := hholds.1.of_keeps (runCalls_keeps hcalls hrest)
        (by rw [PackCall.length_enc, hsize])
      have hfit := PackCall.fits_of_holds hc hfirst hkept
      obtain ⟨r', hrun', hr'⟩ := PackCall.run_of_fits hfit
      obtain rfl := Option.some.inj (hrun'.symm.trans hfirst)
      refine ⟨hfit, ?_⟩
      rw [← hr'.max, ← hsize]
      exact ih hcalls hrest hholds.2

/-! ## Calls that cannot be restarted -/

omit [DoubleCodec] in
/-- **A call that cannot be restarted**: a block, a single field, or fields that
half of the smallest buffer has room for. -/
def PackCall.Steady : PackCall → Prop
  | fields fs _ => fs.length ≤ 1 ∨ sizeOf' fs ≤ sosDefaultBufferMax / 2
  | bytes _ => True

/-- **A steady call that returns did fit.** -/
theorem PackCall.Steady.fits (hsteady : c.Steady) (hshort : c.Short)
    (hmax : sosDefaultBufferMax ≤ b.max) (hrun : c.run b offset = some r) :
    c.Fits b.max offset := by
  cases c with
  | bytes source => exact (sosBufferPackBytes_some hrun).1
  | fields fs hblock =>
      have hsmall : sizeOf' fs ≤ sosDefaultBufferMax / 2 → SosFlow.Fits b.max offset fs := by
        intro hsize
        refine fits_of_room hrun ?_
        unfold sosDefaultBufferMax at hmax hsize
        split <;> omega
      rcases hsteady with hone | hsize
      · match fs with
        | [] => exact hsmall (Nat.zero_le _)
        | [f] => exact fits_of_pack_one (hblock f (by simp)) (hshort f (by simp)) hrun
        | _ :: _ :: _ => exact absurd hone (by simp)
      · exact hsmall hsize

/-- **Steady calls that return did fit**, one after the other. -/
theorem callsFit_of_steady {r : SosBuffer × ℕ} (hsteady : ∀ c ∈ calls, c.Steady)
    (hshort : ∀ c ∈ calls, c.Short) (hmax : sosDefaultBufferMax ≤ b.max)
    (hrun : runCalls b offset calls = some r) : CallsFit b.max offset calls := by
  induction calls generalizing b offset with
  | nil => trivial
  | cons c calls ih =>
      rw [List.forall_mem_cons] at hsteady hshort
      obtain ⟨r₁, hfirst, hrest⟩ := Option.bind_eq_some_iff.mp hrun
      have hfit := hsteady.1.fits hshort.1 hmax hfirst
      obtain ⟨r', hrun', hr'⟩ := PackCall.run_of_fits hfit
      obtain rfl := Option.some.inj (hrun'.symm.trans hfirst)
      have hsize := hr'.newOffset
      rw [PackCall.length_enc] at hsize
      refine ⟨hfit, ?_⟩
      rw [← hr'.max, ← hsize]
      exact ih hsteady.2 hshort.2 (hmax.trans (PackCall.run_max_le hshort.1 hfirst)) hrest

end

end SosFlow
