import SosFlow.Buffer.Fields
import Mathlib.Algebra.Order.BigOperators.Group.List
import Mathlib.Algebra.Order.Group.Nat

/-!
# What a packing call leaves in the buffer

Two things decide whether a call of `SOS_buffer_pack` leaves the encoding
of its fields at its offset. The first is room: nothing in front of an
integer checks the capacity. The second is the growth in front of a string,
which takes the pointer again from `*offset` and so restarts the call's
output on top of what it had written. `Fits` says that neither happens:
the whole encoding lies within the capacity the buffer has when the first
byte is written.

`sosBufferPack_of_fits` gives the result of a call that fits.
`fits_of_holds` is the converse: a call that ends with the encoding in
place did fit. Its argument is that a restart loses bytes for good. After
it the buffer holds the restarted output followed by zeros, and for that to
be the whole encoding the output would have to repeat itself into the
zeros, while it starts with a string that is not empty.
-/

namespace SosFlow

/-- The capacity after the growth a string makes when it is the first
field. -/
def capacityFor (max offset : ℕ) : List Field → ℕ
  | .s v :: _ =>
      if max ≤ offset + v.length then max + (v.length + sosDefaultBufferMax + 1) else max
  | _ => max

/-- **The capacity a call starts to write with**: the buffer's own, grown
when the offset lies in its upper half, and grown again when the format
starts with a string that reaches the end. -/
def capacity (max offset : ℕ) (fields : List Field) : ℕ :=
  capacityFor (if offset > max / 2 then max + (offset + 1) else max) offset fields

/-- **The call fits**: the capacity it starts with is one an `int` can
count, and the encoding ends within it. -/
def Fits (max offset : ℕ) (fields : List Field) : Prop :=
  capacity max offset fields ≤ intMax ∧ offset + sizeOf' fields ≤ capacity max offset fields

instance (max offset : ℕ) (fields : List Field) : Decidable (Fits max offset fields) := by
  unfold Fits
  infer_instance

/-- The strings of an encoding an `int` can count have lengths it can hold. -/
theorem short_of_size {fields : List Field} (h : sizeOf' fields ≤ intMax) :
    ∀ f ∈ fields, f.Short := by
  intro f hf
  have hle : f.size ≤ sizeOf' fields :=
    List.single_le_sum (fun _ _ => Nat.zero_le _) _ (List.mem_map_of_mem hf)
  cases f with
  | s v =>
      simp only [Field.size] at hle
      change v.length ≤ intMax
      omega
  | _ => trivial

/-- So have those of a call that fits. -/
theorem Fits.short {max offset : ℕ} {fields : List Field} (h : Fits max offset fields) :
    ∀ f ∈ fields, f.Short :=
  short_of_size (le_trans (Nat.le_add_left _ _) (h.2.trans h.1))

/-- The first growth of a string only adds capacity. -/
theorem le_capacityFor (max offset : ℕ) (fields : List Field) :
    max ≤ capacityFor max offset fields := by
  unfold capacityFor
  split
  case h_1 => split <;> omega
  case h_2 => exact le_rfl

/-! ## Growing -/

theorem sosBufferGrow_some {b b' : SosBuffer} {n : ℕ} (h : sosBufferGrow b n = some b') :
    b'.data = b.data ++ List.replicate (n + 1) 0 ∧ b'.len = b.len ∧ b'.max = b.max + (n + 1) := by
  unfold sosBufferGrow at h
  split at h
  case isTrue hmax =>
    obtain rfl := Option.some.inj h
    exact ⟨rfl, rfl, by simp [SosBuffer.max]⟩
  case isFalse => cases h

theorem sosBufferGrow_eq {b : SosBuffer} {n : ℕ} (h : b.max + (n + 1) ≤ intMax) :
    ∃ b', sosBufferGrow b n = some b' :=
  ⟨_, dif_pos h⟩

/-! ## The fields of a call that fits -/

section

variable [DoubleCodec]

namespace PackState

variable {offset : ℕ} {st st' : PackState} {f : Field} {fields : List Field}

/-- A field with room above the offset is written where the pointer stands. -/
theorem putField_of_room (h : offset + f.size ≤ st.buffer.max) :
    st.putField offset f = st.put f.enc := by
  cases f with
  | s v =>
      simp only [Field.size] at h
      have hgrow : st.growForString offset (v.length : ℤ) = some st :=
        if_neg (by omega)
      rw [putField, hgrow, Option.bind_some]
  | _ => rfl

/-- **Fields with room are one write of their encoding.** -/
theorem putFields_of_room (hbuf : offset ≤ st.buf)
    (h : st.buf + sizeOf' fields ≤ st.buffer.max) :
    st.putFields offset fields = st.put (encAll fields) := by
  induction fields generalizing st with
  | nil => exact (put_nil (by simpa using h)).symm
  | cons f fields ih =>
      rw [sizeOf'_cons] at h
      rw [putFields, putField_of_room (by omega), encAll_cons, put_append]
      cases hput : st.put f.enc with
      | none => rfl
      | some st₁ =>
          obtain ⟨_, _, hbuf₁, _, _⟩ := put_some hput
          have hmax := put_max hput
          rw [Field.length_enc] at hbuf₁
          exact ih (by omega) (by omega)

end PackState

/-- **The first field of a call** is written with the capacity the call
starts with, and at its offset. -/
theorem putField_first {b : SosBuffer} {offset : ℕ} {f : Field} (fields : List Field)
    {st' : PackState} (h : (PackState.mk b offset 0 0).putField offset f = some st') :
    ∃ b', b'.len = b.len ∧ (∃ n, b'.data = b.data ++ List.replicate n 0) ∧
      b'.max = capacityFor b.max offset (f :: fields) ∧
      (PackState.mk b' offset 0 0).put f.enc = some st' := by
  cases f with
  | s v =>
      obtain ⟨st₁, hgrow, hput⟩ := Option.bind_eq_some_iff.mp h
      rcases PackState.growForString_some hgrow with ⟨hlt, rfl⟩ | ⟨hle, b₁, hb₁, rfl⟩
      · exact ⟨b, rfl, ⟨0, by simp⟩, (if_neg (Nat.not_le.mpr hlt)).symm, hput⟩
      · obtain ⟨hdata, hlen, hmax⟩ := sosBufferGrow_some hb₁
        exact ⟨b₁, hlen, ⟨_, hdata⟩, hmax.trans (if_pos hle).symm, hput⟩
  | _ => exact ⟨b, rfl, ⟨0, by simp⟩, rfl, h⟩

end

/-- The growth in front of the format, as a number. -/
theorem growForOffset_some {b b' : SosBuffer} {offset n : ℕ}
    (h : growForOffset b offset n = some b') :
    (∃ n, b'.data = b.data ++ List.replicate n 0) ∧ b'.len = b.len ∧
      b'.max = (if offset > b.max / 2 then b.max + (n + 1) else b.max) := by
  unfold growForOffset at h
  split at h
  case isTrue hhalf =>
    obtain ⟨hdata, hlen, hmax⟩ := sosBufferGrow_some h
    exact ⟨⟨_, hdata⟩, hlen, by rw [if_pos hhalf, hmax]⟩
  case isFalse hhalf =>
    obtain rfl := Option.some.inj h
    exact ⟨⟨0, by simp⟩, rfl, by rw [if_neg hhalf]⟩

/-! ## A restart loses bytes -/

/-- **A list that runs into its own shift is zero**: if `rest`, followed by
zeros, also starts with something in front of `rest`, every cell of `rest`
is copied from further up, and in the end from the zeros. -/
theorem eq_zero_of_shift {lost rest z : List Byte} (hne : lost ≠ []) (hz : ∀ x ∈ z, x = 0)
    (h : lost ++ rest <+: rest ++ z) : ∀ x ∈ rest, x = 0 := by
  have hpos : 0 < lost.length := List.length_pos_of_ne_nil hne
  have hstep : ∀ j x, rest[j]? = some x → (rest ++ z)[lost.length + j]? = some x := by
    intro j x hj
    obtain ⟨t, ht⟩ := h
    rw [← ht, List.append_assoc, List.getElem?_append_right (by omega), Nat.add_sub_cancel_left]
    obtain ⟨hlt, _⟩ := List.getElem?_eq_some_iff.mp hj
    rw [List.getElem?_append_left hlt, hj]
  -- the distance to the end of `rest` shrinks by the shift at every copy
  have hall : ∀ n j x, rest.length ≤ j + n → rest[j]? = some x → x = 0 := by
    intro n
    induction n with
    | zero =>
        intro j x hn hj
        obtain ⟨hlt, _⟩ := List.getElem?_eq_some_iff.mp hj
        omega
    | succ n ih =>
        intro j x hn hj
        have hup := hstep j x hj
        by_cases hin : lost.length + j < rest.length
        · rw [List.getElem?_append_left hin] at hup
          exact ih _ x (by omega) hup
        · rw [List.getElem?_append_right (by omega)] at hup
          exact hz x (List.mem_of_getElem? hup)
  intro x hx
  obtain ⟨j, hj⟩ := List.mem_iff_getElem?.mp hx
  exact hall rest.length j x (by omega) hj

/-- **The output so far is in place**, and the pointer stands behind it. -/
structure InPlace (offset : ℕ) (packed : List Byte) (st : PackState) : Prop where
  buf : st.buf = offset + packed.length
  packedBytes : st.packedBytes = packed.length
  holds : Mem.Holds st.buffer.data offset packed
  inside : offset + packed.length ≤ st.buffer.max

/-- **The output was restarted**: what the call packed is `lost ++ rest`, but
the pointer stands behind `rest` alone, which starts at the offset and is
not all zeros, while only zeros follow. -/
structure Overwritten (offset : ℕ) (lost rest : List Byte) (st : PackState) : Prop where
  lost_ne : lost ≠ []
  nonzero : ∃ x ∈ rest, x ≠ 0
  buf : st.buf = offset + rest.length
  packedBytes : st.packedBytes = (lost ++ rest).length
  holds : Mem.Holds st.buffer.data offset rest
  inside : offset + rest.length ≤ st.buffer.max
  zeros : ∀ x ∈ st.buffer.data.drop (offset + rest.length), x = 0

/-- **A restarted output is not the output**, however many zeros the buffer
grows by afterwards. -/
theorem Overwritten.not_holds {offset : ℕ} {lost rest : List Byte} {st : PackState}
    (h : Overwritten offset lost rest st) (n : ℕ) :
    ¬ Mem.Holds (st.buffer.data ++ List.replicate n 0) offset (lost ++ rest) := by
  intro hholds
  obtain ⟨t, ht⟩ := h.holds
  have hoff : offset ≤ st.buffer.data.length := le_trans (Nat.le_add_right _ _) h.inside
  have htail : t = st.buffer.data.drop (offset + rest.length) := by
    rw [← List.drop_drop, ← ht, List.drop_left]
  have hzeros : ∀ x ∈ t ++ List.replicate n 0, x = 0 := by
    intro x hx
    rcases List.mem_append.mp hx with hx | hx
    · exact h.zeros x (htail ▸ hx)
    · exact List.eq_of_mem_replicate hx
  obtain ⟨x, hx, hne⟩ := h.nonzero
  unfold Mem.Holds at hholds
  rw [List.drop_append_of_le_length hoff, ← ht, List.append_assoc] at hholds
  exact hne (eq_zero_of_shift h.lost_ne hzeros hholds x hx)

section

variable {offset : ℕ} {st st' : PackState}

/-- A write where the pointer stands keeps the output in place. -/
theorem InPlace.put {packed xs : List Byte} (h : InPlace offset packed st)
    (hput : st.put xs = some st') : InPlace offset (packed ++ xs) st' := by
  obtain ⟨hdata, _, hbuf, hpacked, _⟩ := PackState.put_some hput
  have hbound := PackState.put_bound hput
  have hmax := PackState.put_max hput
  rw [h.buf] at hdata hbuf hbound
  rw [h.packedBytes] at hpacked
  refine ⟨?_, ?_, ?_, ?_⟩
  · rw [hbuf, List.length_append]; omega
  · rw [hpacked, List.length_append]
  · exact Mem.holds_append.mpr
      ⟨h.holds.store_above hdata le_rfl, Mem.holds_of_store hdata⟩
  · rw [List.length_append, hmax]; omega

/-- A write where the pointer stands does not bring a lost output back. -/
theorem Overwritten.put {lost rest xs : List Byte} (h : Overwritten offset lost rest st)
    (hput : st.put xs = some st') : Overwritten offset lost (rest ++ xs) st' := by
  obtain ⟨hdata, _, hbuf, hpacked, _⟩ := PackState.put_some hput
  have hbound := PackState.put_bound hput
  have hmax := PackState.put_max hput
  obtain ⟨x, hx, hne⟩ := h.nonzero
  rw [h.buf] at hdata hbuf hbound
  rw [h.packedBytes] at hpacked
  refine ⟨h.lost_ne, ⟨x, List.mem_append_left _ hx, hne⟩, ?_, ?_, ?_, ?_, ?_⟩
  · rw [hbuf, List.length_append]; omega
  · rw [hpacked]; simp only [List.length_append]; omega
  · exact Mem.holds_append.mpr
      ⟨h.holds.store_above hdata le_rfl, Mem.holds_of_store hdata⟩
  · rw [List.length_append, hmax]; omega
  · intro y hy
    rw [List.length_append, ← Nat.add_assoc, Mem.drop_of_store hdata le_rfl,
      ← List.drop_drop] at hy
    exact h.zeros y (List.mem_of_mem_drop hy)

variable [DoubleCodec]

/-- **The growth in front of a string restarts the output**, of a call that
has written something before it. -/
theorem overwritten_of_grow {packed : List Byte} {v : CString} {b : SosBuffer}
    (hne : packed ≠ []) (hpacked : st.packedBytes = packed.length)
    (hinside : offset < st.buffer.max) (hfull : st.buffer.max ≤ offset + v.length)
    (hgrow : sosBufferGrow st.buffer (v.length + sosDefaultBufferMax) = some b)
    (hput : PackState.put { st with buffer := b, buf := offset } (Field.s v).enc = some st') :
    Overwritten offset packed (Field.s v).enc st' := by
  obtain ⟨hdata, _, hbuf, hcount, _⟩ := PackState.put_some hput
  have hbound := PackState.put_bound hput
  have hmax := PackState.put_max hput
  obtain ⟨hgrown, _, _⟩ := sosBufferGrow_some hgrow
  -- the string is not empty, for it reaches from inside the buffer to its end
  have hpos : v.bytes ≠ [] := by
    intro hnil
    rw [CString.length, hnil, List.length_nil] at hfull
    omega
  obtain ⟨x, hx⟩ := List.exists_mem_of_ne_nil _ hpos
  refine ⟨hne, ⟨x, List.mem_append_right _ hx, v.nonzero x hx⟩, hbuf, ?_, ?_, ?_, ?_⟩
  · rw [hcount, List.length_append, hpacked]
  · exact Mem.holds_of_store hdata
  · rw [hmax]; exact hbound
  · intro y hy
    have hlen : st.buffer.data.length ≤ offset + (Field.s v).enc.length := by
      rw [Field.length_enc, Field.size]
      change st.buffer.max ≤ _
      omega
    rw [Mem.drop_of_store hdata le_rfl, hgrown, List.drop_append, List.drop_eq_nil_of_le hlen,
      List.nil_append] at hy
    exact List.eq_of_mem_replicate (List.mem_of_mem_drop hy)

/-- **One field after the first**: the output stays in place in the same
capacity, or it is restarted. -/
theorem putField_of_inPlace {packed : List Byte} {f : Field} (h : InPlace offset packed st)
    (hne : packed ≠ []) (hput : st.putField offset f = some st') :
    (InPlace offset (packed ++ f.enc) st' ∧ st'.buffer.max = st.buffer.max) ∨
      ∃ lost rest, packed ++ f.enc = lost ++ rest ∧ Overwritten offset lost rest st' := by
  have hpos := List.length_pos_of_ne_nil hne
  have hinside := h.inside
  cases f with
  | s v =>
      obtain ⟨st₁, hgrow, hwrite⟩ := Option.bind_eq_some_iff.mp hput
      rcases PackState.growForString_some hgrow with ⟨_, rfl⟩ | ⟨hfull, b, hb, rfl⟩
      · exact .inl ⟨h.put hwrite, PackState.put_max hwrite⟩
      · exact .inr ⟨packed, _, rfl,
          overwritten_of_grow hne h.packedBytes (by omega) hfull hb hwrite⟩
  | _ => exact .inl ⟨h.put hput, PackState.put_max hput⟩

/-- **One field after a restart**: the output stays lost. -/
theorem putField_of_overwritten {lost rest : List Byte} {f : Field}
    (h : Overwritten offset lost rest st) (hput : st.putField offset f = some st') :
    ∃ lost' rest', (lost ++ rest) ++ f.enc = lost' ++ rest' ∧
      Overwritten offset lost' rest' st' := by
  obtain ⟨x, hx, _⟩ := h.nonzero
  have hpos := List.length_pos_of_mem hx
  have hinside := h.inside
  cases f with
  | s v =>
      obtain ⟨st₁, hgrow, hwrite⟩ := Option.bind_eq_some_iff.mp hput
      rcases PackState.growForString_some hgrow with ⟨_, rfl⟩ | ⟨hfull, b, hb, rfl⟩
      · exact ⟨lost, _, List.append_assoc .., h.put hwrite⟩
      · exact ⟨lost ++ rest, _, rfl, overwritten_of_grow (by simp [h.lost_ne]) h.packedBytes
          (by omega) hfull hb hwrite⟩
  | _ => exact ⟨lost, _, List.append_assoc .., h.put hput⟩

/-- Fields after a restart do not bring the output back. -/
theorem putFields_of_overwritten {fields : List Field} {lost rest : List Byte}
    (h : Overwritten offset lost rest st) (hput : st.putFields offset fields = some st') :
    ∃ lost' rest', (lost ++ rest) ++ encAll fields = lost' ++ rest' ∧
      Overwritten offset lost' rest' st' := by
  induction fields generalizing st lost rest with
  | nil =>
      obtain rfl := Option.some.inj hput
      exact ⟨lost, rest, List.append_nil _, h⟩
  | cons f fields ih =>
      obtain ⟨st₁, hfirst, hrest⟩ := Option.bind_eq_some_iff.mp hput
      obtain ⟨lost₁, rest₁, heq, h₁⟩ := putField_of_overwritten h hfirst
      obtain ⟨lost₂, rest₂, heq₂, h₂⟩ := ih h₁ hrest
      exact ⟨lost₂, rest₂, by rw [encAll_cons, ← List.append_assoc, heq, heq₂], h₂⟩

/-- **The fields after the first**: either all of them are in place in the
same capacity, or the output was restarted on the way. -/
theorem putFields_of_inPlace {fields : List Field} {packed : List Byte}
    (h : InPlace offset packed st) (hne : packed ≠ [])
    (hput : st.putFields offset fields = some st') :
    (InPlace offset (packed ++ encAll fields) st' ∧ st'.buffer.max = st.buffer.max) ∨
      ∃ lost rest, packed ++ encAll fields = lost ++ rest ∧ Overwritten offset lost rest st' := by
  induction fields generalizing st packed with
  | nil =>
      obtain rfl := Option.some.inj hput
      rw [encAll_nil, List.append_nil]
      exact .inl ⟨h, rfl⟩
  | cons f fields ih =>
      obtain ⟨st₁, hfirst, hrest⟩ := Option.bind_eq_some_iff.mp hput
      rw [encAll_cons, ← List.append_assoc]
      rcases putField_of_inPlace h hne hfirst with ⟨h₁, hmax⟩ | ⟨lost, rest, heq, h₁⟩
      · rw [← hmax]
        exact ih h₁ (by simp [hne]) hrest
      · obtain ⟨lost', rest', heq', h'⟩ := putFields_of_overwritten h₁ hrest
        exact .inr ⟨lost', rest', by rw [heq, heq'], h'⟩

/-! ## The call -/

/-- **What a call leaves that packed `enc` in place**: `enc` over its own
bytes of a buffer that has grown by zeros to `cap`, and the offset and
`len` moved past it. -/
structure PackedAt (b : SosBuffer) (offset : ℕ) (enc : List Byte) (cap : ℕ) (r : PackResult) :
    Prop where
  packedBytes : r.packedBytes = enc.length
  newOffset : r.offset = offset + enc.length
  len : r.buffer.len = max b.len (offset + enc.length : ℕ)
  max : r.buffer.max = cap
  data : ∃ n, Mem.store (b.data ++ List.replicate n 0) offset enc = some r.buffer.data

namespace PackedAt

omit [DoubleCodec]

variable {b : SosBuffer} {enc : List Byte} {cap : ℕ} {r : PackResult}

theorem holds (h : PackedAt b offset enc cap r) : Mem.Holds r.buffer.data offset enc :=
  h.data.elim fun _ hn => Mem.holds_of_store hn

/-- The bytes before the offset are the old ones. -/
theorem take (h : PackedAt b offset enc cap r) (hoff : offset ≤ b.max) {k : ℕ} (hk : k ≤ offset) :
    r.buffer.data.take k = b.data.take k := by
  obtain ⟨n, hn⟩ := h.data
  rw [Mem.take_of_store hn hk, List.take_append_of_le_length (hk.trans hoff)]

/-- A call that grew nothing is a store into the old bytes. -/
theorem store (h : PackedAt b offset enc b.max r) :
    Mem.store b.data offset enc = some r.buffer.data := by
  obtain ⟨n, hn⟩ := h.data
  have hlen := Mem.length_store hn
  have hmax := h.max
  rw [List.length_append, List.length_replicate] at hlen
  have hzero : n = 0 := by
    simp only [SosBuffer.max] at hmax
    omega
  simpa [hzero] using hn

end PackedAt

/-- The fields of a call that fits, from its first byte on. -/
theorem putFields_of_fits {b : SosBuffer} {fields : List Field}
    (hcap : capacityFor b.max offset fields ≤ intMax)
    (hroom : offset + sizeOf' fields ≤ capacityFor b.max offset fields) :
    ∃ b', b'.len = b.len ∧ (∃ n, b'.data = b.data ++ List.replicate n 0) ∧
      b'.max = capacityFor b.max offset fields ∧
      (PackState.mk b offset 0 0).putFields offset fields =
        (PackState.mk b' offset 0 0).put (encAll fields) := by
  have hplain : ∀ h : offset + sizeOf' fields ≤ b.max,
      (PackState.mk b offset 0 0).putFields offset fields =
        (PackState.mk b offset 0 0).put (encAll fields) :=
    fun h => PackState.putFields_of_room le_rfl h
  match fields with
  | .s v :: rest =>
      by_cases hfull : b.max ≤ offset + v.length
      · -- the string's own growth comes before the first byte, and restarts nothing
        have hcapeq : capacityFor b.max offset (.s v :: rest) =
            b.max + (v.length + sosDefaultBufferMax + 1) := if_pos hfull
        rw [hcapeq] at hcap hroom ⊢
        obtain ⟨b', hb'⟩ := sosBufferGrow_eq (b := b) (n := v.length + sosDefaultBufferMax) hcap
        obtain ⟨hdata, hlen, hmax⟩ := sosBufferGrow_some hb'
        have hgrow : (PackState.mk b offset 0 0).growForString offset (v.length : ℤ) =
            some ⟨b', offset, 0, 0⟩ := by
          rw [PackState.growForString, if_pos (by exact_mod_cast hfull)]
          exact congrArg (Option.map _) hb'
        refine ⟨b', hlen, ⟨_, hdata⟩, hmax, ?_⟩
        rw [← PackState.putFields_of_room le_rfl (by change offset + _ ≤ b'.max; omega),
          PackState.putFields, PackState.putFields, PackState.putField, hgrow, Option.bind_some,
          PackState.putField_of_room (by
            change offset + _ ≤ b'.max
            rw [sizeOf'_cons] at hroom
            omega)]
      · have hcapeq : capacityFor b.max offset (.s v :: rest) = b.max := if_neg hfull
        exact ⟨b, rfl, ⟨0, by simp⟩, hcapeq.symm, hplain (hcapeq ▸ hroom)⟩
  | [] => exact ⟨b, rfl, ⟨0, by simp⟩, rfl, hplain hroom⟩
  | .i _ :: _ | .l _ :: _ | .d _ :: _ | .g _ :: _ | .b _ :: _ =>
      exact ⟨b, rfl, ⟨0, by simp⟩, rfl, hplain hroom⟩

/-- **A call that fits packs its fields.** -/
theorem sosBufferPack_of_fits {b : SosBuffer} {fields : List Field}
    (hblock : ∀ f ∈ fields, ¬ f.IsBlock) (h : Fits b.max offset fields) :
    ∃ r, sosBufferPack b offset (formatOf fields) (argsOf fields) = some r ∧
      PackedAt b offset (encAll fields) (capacity b.max offset fields) r := by
  obtain ⟨hcap, hroom⟩ := h
  have hle := le_capacityFor (if offset > b.max / 2 then b.max + (offset + 1) else b.max)
    offset fields
  obtain ⟨b₁, hb₁⟩ : ∃ b₁, growForOffset b offset offset = some b₁ := by
    unfold growForOffset
    split
    case isTrue hhalf =>
      rw [capacity, if_pos hhalf] at hcap
      rw [if_pos hhalf] at hle
      exact sosBufferGrow_eq (hle.trans hcap)
    case isFalse => exact ⟨b, rfl⟩
  obtain ⟨⟨n₁, hdata₁⟩, hlen₁, hmax₁⟩ := growForOffset_some hb₁
  unfold capacity at hcap hroom
  rw [← hmax₁] at hcap hroom
  obtain ⟨b₂, hlen₂, ⟨n₂, hdata₂⟩, hmax₂, hfields⟩ := putFields_of_fits hcap hroom
  obtain ⟨st, hput⟩ := @PackState.put_eq ⟨b₂, offset, 0, 0⟩ (encAll fields) (by
    rw [length_encAll]
    change offset + _ ≤ b₂.max
    omega)
  obtain ⟨hstore, hlen, hbuf, hpacked, _⟩ := PackState.put_some hput
  rw [length_encAll, Nat.zero_add] at hpacked
  have hfits : Fits b.max offset fields :=
    ⟨by unfold capacity; rwa [← hmax₁], by unfold capacity; rwa [← hmax₁]⟩
  have hshort := hfits.short
  have hfinish : st.finish offset = some ⟨st.buffer.setLen (Max.max st.buffer.len
      (offset + sizeOf' fields : ℕ)), offset + sizeOf' fields, sizeOf' fields⟩ := by
    rw [PackState.finish, hpacked, if_pos (hroom.trans hcap)]
  refine ⟨⟨st.buffer.setLen (Max.max st.buffer.len (offset + sizeOf' fields : ℕ)),
    offset + sizeOf' fields, sizeOf' fields⟩, ?_, (length_encAll fields).symm,
    congrArg (offset + ·) (length_encAll fields).symm, ?_, ?_, n₁ + n₂, ?_⟩
  · rw [sosBufferPack, hb₁]
    simp only [Option.bind_eq_bind, Option.bind_some]
    rw [packLoop_fields hblock hshort rfl, hfields, hput, Option.bind_some, hfinish]
  · rw [SosBuffer.setLen_len, hlen, hlen₂, hlen₁, length_encAll]
  · rw [SosBuffer.setLen_max, PackState.put_max hput, capacity, ← hmax₁]
    exact hmax₂
  · rw [SosBuffer.setLen_data, List.replicate_add, ← List.append_assoc, ← hdata₁, ← hdata₂]
    exact hstore

/-- The parts of a call that returns. -/
theorem sosBufferPack_some {b : SosBuffer} {format : List Char} {args : List Value}
    {r : PackResult} (h : sosBufferPack b offset format args = some r) :
    ∃ b₁ st, growForOffset b offset offset = some b₁ ∧
      packLoop offset format args ⟨b₁, offset, 0, 0⟩ = some st ∧
      r.buffer.data = st.buffer.data ∧ r.packedBytes = st.packedBytes ∧
      r.offset = offset + r.packedBytes := by
  obtain ⟨b₁, hgrow, h⟩ := Option.bind_eq_some_iff.mp h
  obtain ⟨st, hloop, h⟩ := Option.bind_eq_some_iff.mp h
  unfold PackState.finish at h
  split at h
  case isTrue =>
    obtain rfl := Option.some.inj h
    exact ⟨b₁, st, hgrow, hloop, rfl, rfl, rfl⟩
  case isFalse => cases h

/-- **How a call ends**: with its output in place in the capacity it started
with, or restarted. -/
theorem putFields_outcome {b : SosBuffer} {f : Field} {fields : List Field}
    (h : (PackState.mk b offset 0 0).putFields offset (f :: fields) = some st) :
    (InPlace offset (encAll (f :: fields)) st ∧
        st.buffer.max = capacityFor b.max offset (f :: fields)) ∨
      ∃ lost rest, encAll (f :: fields) = lost ++ rest ∧ Overwritten offset lost rest st := by
  obtain ⟨st₁, hfirst, hrest⟩ := Option.bind_eq_some_iff.mp h
  obtain ⟨b', _, _, hmax, hput⟩ := putField_first fields hfirst
  have hstart : InPlace offset [] (PackState.mk b' offset 0 0) :=
    ⟨rfl, rfl, Mem.holds_nil, le_trans (Nat.le_add_right _ _) (PackState.put_bound hput)⟩
  have h₁ := hstart.put hput
  have hmax₁ := PackState.put_max hput
  rw [List.nil_append] at h₁
  rw [← hmax]
  rcases putFields_of_inPlace h₁ f.enc_ne_nil hrest with ⟨h', hmax'⟩ | hlost
  · exact .inl ⟨h', hmax'.trans hmax₁⟩
  · exact .inr hlost

/-- **A call that leaves its encoding in place did fit**, also when the
encoding is only looked for after the buffer has grown once more. -/
theorem fits_of_holds {b : SosBuffer} {fields : List Field} {r : PackResult} {n : ℕ}
    (hblock : ∀ f ∈ fields, ¬ f.IsBlock) (hshort : ∀ f ∈ fields, f.Short)
    (hpack : sosBufferPack b offset (formatOf fields) (argsOf fields) = some r)
    (hholds : Mem.Holds (r.buffer.data ++ List.replicate n 0) offset (encAll fields)) :
    Fits b.max offset fields := by
  obtain ⟨b₁, st, hgrow, hloop, hdata, _⟩ := sosBufferPack_some hpack
  obtain ⟨_, _, hmax₁⟩ := growForOffset_some hgrow
  rw [packLoop_fields hblock hshort rfl] at hloop
  rw [hdata] at hholds
  unfold Fits capacity
  rw [← hmax₁]
  cases fields with
  | nil =>
      have hoff : offset ≤ b₁.max := by
        rw [hmax₁]
        split <;> omega
      exact ⟨b₁.max_le, hoff⟩
  | cons f fields =>
      rcases putFields_outcome hloop with ⟨hin, hmax⟩ | ⟨lost, rest, heq, hlost⟩
      · have hinside := hin.inside
        rw [length_encAll, hmax] at hinside
        exact ⟨hmax ▸ st.buffer.max_le, hinside⟩
      · exact absurd (heq ▸ hholds) (hlost.not_holds n)

/-- A call of one field has nothing in front of it that a restart would lose. -/
theorem fits_of_pack_one {b : SosBuffer} {f : Field} {r : PackResult} (hblock : ¬ f.IsBlock)
    (hshort : f.Short) (hpack : sosBufferPack b offset (formatOf [f]) (argsOf [f]) = some r) :
    Fits b.max offset [f] := by
  obtain ⟨b₁, st, hgrow, hloop, -⟩ := sosBufferPack_some hpack
  obtain ⟨-, -, hmax₁⟩ := growForOffset_some hgrow
  rw [packLoop_fields (by simpa using hblock) (by simpa using hshort) rfl] at hloop
  obtain ⟨st₁, hfirst, -⟩ := Option.bind_eq_some_iff.mp hloop
  obtain ⟨b', -, -, hmax, hput⟩ := putField_first [] hfirst
  have hbound := PackState.put_bound hput
  rw [Field.length_enc, hmax] at hbound
  unfold Fits capacity
  rw [← hmax₁, sizeOf'_cons, sizeOf'_nil, Nat.add_zero]
  exact ⟨hmax ▸ b'.max_le, hbound⟩

/-- A call with room behind its offset, once the buffer has grown for that, is
not restarted. -/
theorem fits_of_room {b : SosBuffer} {fields : List Field} {r : PackResult}
    (hpack : sosBufferPack b offset (formatOf fields) (argsOf fields) = some r)
    (hroom : offset + sizeOf' fields ≤ if offset > b.max / 2 then b.max + (offset + 1) else b.max) :
    Fits b.max offset fields := by
  obtain ⟨b₁, st, hgrow, -⟩ := sosBufferPack_some hpack
  obtain ⟨-, -, hmax₁⟩ := growForOffset_some hgrow
  rw [← hmax₁] at hroom
  have hcap : capacityFor b₁.max offset fields = b₁.max := by
    match fields with
    | .s v :: rest =>
        rw [sizeOf'_cons, Field.size] at hroom
        exact if_neg (by omega)
    | [] | .i _ :: _ | .l _ :: _ | .d _ :: _ | .g _ :: _ | .b _ :: _ => rfl
  unfold Fits capacity
  rw [← hmax₁, hcap]
  exact ⟨b₁.max_le, hroom⟩

/-- A call moves the offset by the bytes it packs, also when it was
restarted. -/
theorem sosBufferPack_offset {b : SosBuffer} {fields : List Field} {r : PackResult}
    (hblock : ∀ f ∈ fields, ¬ f.IsBlock) (hshort : ∀ f ∈ fields, f.Short)
    (hpack : sosBufferPack b offset (formatOf fields) (argsOf fields) = some r) :
    r.offset = offset + sizeOf' fields := by
  obtain ⟨b₁, st, _, hloop, _, hpacked, hoff⟩ := sosBufferPack_some hpack
  rw [packLoop_fields hblock hshort rfl] at hloop
  rw [hoff, hpacked]
  cases fields with
  | nil =>
      obtain rfl := Option.some.inj hloop
      rfl
  | cons f fields =>
      rcases putFields_outcome hloop with ⟨hin, _⟩ | ⟨lost, rest, heq, hlost⟩
      · rw [hin.packedBytes, length_encAll]
      · rw [hlost.packedBytes, ← heq, length_encAll]

/-- No field changes `len`. -/
theorem PackState.putField_len {f : Field} (h : st.putField offset f = some st') :
    st'.buffer.len = st.buffer.len := by
  cases f with
  | s v =>
      obtain ⟨st₁, hgrow, hput⟩ := Option.bind_eq_some_iff.mp h
      have hlen := (PackState.put_some hput).2.1
      rcases PackState.growForString_some hgrow with ⟨_, rfl⟩ | ⟨_, b, hb, rfl⟩
      · exact hlen
      · exact hlen.trans (sosBufferGrow_some hb).2.1
  | _ => exact (PackState.put_some h).2.1

theorem PackState.putFields_len {fields : List Field} (h : st.putFields offset fields = some st') :
    st'.buffer.len = st.buffer.len := by
  induction fields generalizing st with
  | nil =>
      obtain rfl := Option.some.inj h
      rfl
  | cons f fields ih =>
      obtain ⟨st₁, hfirst, hrest⟩ := Option.bind_eq_some_iff.mp h
      exact (ih hrest).trans (PackState.putField_len hfirst)

/-- A call raises `len` to the offset it leaves, also when it was restarted. -/
theorem sosBufferPack_len {b : SosBuffer} {fields : List Field} {r : PackResult}
    (hblock : ∀ f ∈ fields, ¬ f.IsBlock) (hshort : ∀ f ∈ fields, f.Short)
    (hpack : sosBufferPack b offset (formatOf fields) (argsOf fields) = some r) :
    r.buffer.len = max b.len (r.offset : ℤ) := by
  obtain ⟨b₁, hgrow, hrest⟩ := Option.bind_eq_some_iff.mp hpack
  obtain ⟨st, hloop, hfinish⟩ := Option.bind_eq_some_iff.mp hrest
  rw [packLoop_fields hblock hshort rfl] at hloop
  have hlen : st.buffer.len = b.len :=
    (PackState.putFields_len hloop).trans (growForOffset_some hgrow).2.1
  unfold PackState.finish at hfinish
  split at hfinish
  case isTrue =>
    obtain rfl := Option.some.inj hfinish
    rw [SosBuffer.setLen_len, hlen]
  case isFalse => cases hfinish

/-- **A call packs what their lengths leave of its strings.** -/
theorem sosBufferPack_clip {b : SosBuffer} {fields : List Field} (hblock : ∀ f ∈ fields, ¬ f.IsBlock)
    (hcounted : ∀ f ∈ fields, f.Counted) :
    sosBufferPack b offset (formatOf fields) (argsOf fields) =
      sosBufferPack b offset (formatOf (fields.map Field.clip)) (argsOf (fields.map Field.clip)) := by
  have hblock' : ∀ f ∈ fields.map Field.clip, ¬ f.IsBlock := by
    rintro f hf
    obtain ⟨g, hg, rfl⟩ := List.mem_map.mp hf
    exact Field.not_isBlock_clip (hblock g hg)
  have hshort : ∀ f ∈ fields.map Field.clip, f.Short := by
    rintro f hf
    obtain ⟨g, -, rfl⟩ := List.mem_map.mp hf
    exact g.short_clip
  have hloop : ∀ b₁ : SosBuffer,
      packLoop offset (formatOf fields) (argsOf fields) ⟨b₁, offset, 0, 0⟩ =
        packLoop offset (formatOf (fields.map Field.clip)) (argsOf (fields.map Field.clip))
          ⟨b₁, offset, 0, 0⟩ := by
    intro b₁
    rw [packLoop_clip hblock hcounted rfl, packLoop_fields hblock' hshort rfl]
  simp only [sosBufferPack, hloop]

theorem counted_of_sosBufferPack {b : SosBuffer} {fields : List Field} {r : PackResult}
    (hblock : ∀ f ∈ fields, ¬ f.IsBlock)
    (hpack : sosBufferPack b offset (formatOf fields) (argsOf fields) = some r) :
    ∀ f ∈ fields, f.Counted := by
  obtain ⟨b₁, st, -, hloop, -⟩ := sosBufferPack_some hpack
  exact counted_of_packLoop hblock rfl hloop

/-- A call that packs anything leaves its offset inside the buffer. -/
theorem offset_lt_of_pack {b : SosBuffer} {f : Field} {fields : List Field} {r : PackResult}
    (hblock : ∀ f' ∈ f :: fields, ¬ f'.IsBlock) (hshort : ∀ f' ∈ f :: fields, f'.Short)
    (hpack : sosBufferPack b offset (formatOf (f :: fields)) (argsOf (f :: fields)) = some r) :
    offset < r.buffer.max := by
  obtain ⟨b₁, st, _, hloop, hdata, _⟩ := sosBufferPack_some hpack
  rw [packLoop_fields hblock hshort rfl] at hloop
  rw [SosBuffer.max, hdata]
  rcases putFields_outcome hloop with ⟨hin, _⟩ | ⟨lost, rest, _, hlost⟩
  · have hinside := hin.inside
    have hpos := List.length_pos_of_ne_nil f.enc_ne_nil
    rw [encAll_cons, List.length_append] at hinside
    change offset < st.buffer.max
    omega
  · obtain ⟨x, hx, _⟩ := hlost.nonzero
    have hpos := List.length_pos_of_mem hx
    have hinside := hlost.inside
    change offset < st.buffer.max
    omega

/-! ## What any call leaves alone -/

/-- Growing and writing from the offset on keep the bytes before it. -/
theorem PackState.putField_keeps {f : Field} (hbuf : offset ≤ st.buf)
    (h : st.putField offset f = some st') :
    offset ≤ st'.buf ∧ Mem.Keeps 0 offset st.buffer.data st'.buffer.data := by
  have hwrite : ∀ {st₁ : PackState}, offset ≤ st₁.buf → st₁.put f.enc = some st' →
      offset ≤ st'.buf ∧ Mem.Keeps 0 offset st₁.buffer.data st'.buffer.data := by
    intro st₁ hbuf₁ hput
    obtain ⟨hdata, _, hbuf', _, _⟩ := PackState.put_some hput
    exact ⟨by omega, Mem.keeps_of_store 0 hdata hbuf₁⟩
  cases f with
  | s v =>
      obtain ⟨st₁, hgrow, hput⟩ := Option.bind_eq_some_iff.mp h
      rcases PackState.growForString_some hgrow with ⟨_, rfl⟩ | ⟨_, b, hb, rfl⟩
      · exact hwrite hbuf hput
      · obtain ⟨hle, hkeep⟩ := hwrite le_rfl hput
        have hgrown := Mem.keeps_append_replicate 0 offset st.buffer.data
          (v.length + sosDefaultBufferMax + 1)
        rw [← (sosBufferGrow_some hb).1] at hgrown
        exact ⟨hle, hgrown.trans hkeep⟩
  | _ => exact hwrite hbuf h

theorem PackState.putFields_keeps {fields : List Field} (hbuf : offset ≤ st.buf)
    (h : st.putFields offset fields = some st') :
    Mem.Keeps 0 offset st.buffer.data st'.buffer.data := by
  induction fields generalizing st with
  | nil =>
      obtain rfl := Option.some.inj h
      exact Mem.Keeps.refl 0 offset _
  | cons f fields ih =>
      obtain ⟨st₁, hfirst, hrest⟩ := Option.bind_eq_some_iff.mp h
      obtain ⟨hbuf₁, hkeep⟩ := PackState.putField_keeps hbuf hfirst
      exact hkeep.trans (ih hbuf₁ hrest)

/-- **Any call keeps the bytes before its offset.** -/
theorem sosBufferPack_keeps {b : SosBuffer} {fields : List Field} {r : PackResult}
    (hblock : ∀ f ∈ fields, ¬ f.IsBlock) (hshort : ∀ f ∈ fields, f.Short)
    (hpack : sosBufferPack b offset (formatOf fields) (argsOf fields) = some r) :
    Mem.Keeps 0 offset b.data r.buffer.data := by
  obtain ⟨b₁, st, hgrow, hloop, hdata, _⟩ := sosBufferPack_some hpack
  obtain ⟨⟨n, hgrown⟩, _, _⟩ := growForOffset_some hgrow
  rw [packLoop_fields hblock hshort rfl] at hloop
  have hzeros := Mem.keeps_append_replicate 0 offset b.data n
  rw [← hgrown] at hzeros
  rw [hdata]
  exact hzeros.trans (PackState.putFields_keeps (le_refl offset) hloop)

/-- No field shrinks the buffer. -/
theorem PackState.putField_max_le {f : Field} (h : st.putField offset f = some st') :
    st.buffer.max ≤ st'.buffer.max := by
  cases f with
  | s v =>
      obtain ⟨st₁, hgrow, hput⟩ := Option.bind_eq_some_iff.mp h
      have hmax := PackState.put_max hput
      rcases PackState.growForString_some hgrow with ⟨_, rfl⟩ | ⟨_, b, hb, rfl⟩
      · exact hmax.ge
      · have hgrown := (sosBufferGrow_some hb).2.2
        simp only at hmax
        omega
  | _ => exact (PackState.put_max h).ge

theorem PackState.putFields_max_le {fields : List Field}
    (h : st.putFields offset fields = some st') : st.buffer.max ≤ st'.buffer.max := by
  induction fields generalizing st with
  | nil =>
      obtain rfl := Option.some.inj h
      exact le_rfl
  | cons f fields ih =>
      obtain ⟨st₁, hfirst, hrest⟩ := Option.bind_eq_some_iff.mp h
      exact (PackState.putField_max_le hfirst).trans (ih hrest)

/-- **No call shrinks the buffer.** -/
theorem sosBufferPack_max_le {b : SosBuffer} {fields : List Field} {r : PackResult}
    (hblock : ∀ f ∈ fields, ¬ f.IsBlock) (hshort : ∀ f ∈ fields, f.Short)
    (hpack : sosBufferPack b offset (formatOf fields) (argsOf fields) = some r) :
    b.max ≤ r.buffer.max := by
  obtain ⟨b₁, st, hgrow, hloop, hdata, _⟩ := sosBufferPack_some hpack
  obtain ⟨_, _, hmax₁⟩ := growForOffset_some hgrow
  rw [packLoop_fields hblock hshort rfl] at hloop
  have hmax := PackState.putFields_max_le hloop
  rw [SosBuffer.max.eq_1 st.buffer, ← hdata] at hmax
  change b₁.max ≤ r.buffer.max at hmax
  split at hmax₁ <;> omega

end

end SosFlow
