import SosFlow.Buffer.Pack

/-!
# What an unpacking call reads

On the encoding of its fields `SOS_buffer_unpack` fills every destination
with the field's value and counts the encoding's bytes
(`unpackLoop_of_holds`). The other direction holds as well: the values
delivered determine the bytes they were read from (`holds_of_unpackLoop`),
so a reader that sees what was packed was reading the encoding.

A block field is out of both. Its bytes are copied to the destination of
the last string, and its own destination is left as it was.
-/

namespace SosFlow

open Mem (Holds)

/-- The value comes back from the float conversions unchanged. -/
def Field.Lossless [DoubleCodec] : Field → Prop
  | .d v => DoubleCodec.unpack754 (DoubleCodec.pack754 v) = v
  | _ => True

/-- **What is read of a field**: its argument, a double as the conversions leave
it. -/
def Field.read [DoubleCodec] : Field → Value
  | .d v => .double (DoubleCodec.unpack754 (DoubleCodec.pack754 v))
  | f => f.arg

theorem Field.Lossless.read_eq [DoubleCodec] {f : Field} (h : f.Lossless) : f.read = f.arg := by
  cases f with
  | d v => exact congrArg Value.double h
  | _ => rfl

/-! ## One read at the pointer -/

namespace UnpackState

variable {data : List Byte} {st st' : UnpackState}

theorem fixed_of_holds {bytes : List Byte} {read : List Byte → Option Value} {v : Value}
    (hholds : Holds data st.buf bytes) (hin : st.buf + bytes.length ≤ data.length)
    (hread : read bytes = some v) :
    st.fixed data bytes.length read =
      some { st.advance bytes.length with outs := st.outs ++ [some v] } := by
  rw [fixed, Mem.load_of_holds hholds hin]
  simp only [Option.bind_eq_bind, Option.bind_some, hread]

theorem fixed_some {n : ℕ} {read : List Byte → Option Value} (h : st.fixed data n read = some st') :
    ∃ bytes v, Holds data st.buf bytes ∧ st.buf + n ≤ data.length ∧ bytes.length = n ∧
      read bytes = some v ∧ st' = { st.advance n with outs := st.outs ++ [some v] } := by
  obtain ⟨bytes, hload, h⟩ := Option.bind_eq_some_iff.mp h
  obtain ⟨v, hread, h⟩ := Option.bind_eq_some_iff.mp h
  obtain ⟨hin, hlen, hholds⟩ := Mem.load_some hload
  exact ⟨bytes, v, hholds, hin, hlen, hread, (Option.some.inj h).symm⟩

/-- Without a `maxlen` the whole length is copied. -/
theorem readLen_some {len count : ℕ} (hmax : st.maxlen = 0#32)
    (h : st.readLen data = some (len, count)) :
    ∃ w, Holds data st.buf (packi32 w) ∧ st.buf + 4 ≤ data.length ∧ len = w.toNat ∧
      count = w.toNat := by
  obtain ⟨bytes, hload, h⟩ := Option.bind_eq_some_iff.mp h
  obtain ⟨w, hread, h⟩ := Option.bind_eq_some_iff.mp h
  obtain ⟨hin, _, hholds⟩ := Mem.load_some hload
  have hcopy : ¬ (st.maxlen > 0 ∧ w > st.maxlen) := by
    rw [hmax]
    exact fun hlt => BitVec.lt_irrefl _ hlt.1
  rw [if_neg hcopy] at h
  obtain ⟨rfl, rfl⟩ := Prod.mk.inj (Option.some.inj h)
  rw [← packi32_of_unpacki32 hread] at hholds
  exact ⟨w, hholds, hin, rfl, rfl⟩

theorem readLen_of_holds {w : CInt} (hmax : st.maxlen = 0#32)
    (hholds : Holds data st.buf (packi32 w)) (hin : st.buf + 4 ≤ data.length) :
    st.readLen data = some (w.toNat, w.toNat) := by
  rw [readLen, show (4 : ℕ) = (packi32 w).length from rfl, Mem.load_of_holds hholds hin]
  simp only [Option.bind_eq_bind, Option.bind_some, unpacki32_packi32, hmax]
  simp

end UnpackState

theorem copyString_of_holds {data bytes : List Byte} {p : ℕ} (hholds : Holds data p bytes)
    (hin : p + bytes.length ≤ data.length) : copyString data p bytes.length = some bytes := by
  unfold copyString
  split
  case isTrue => exact Mem.load_of_holds hholds hin
  case isFalse hpos =>
    have hnil : bytes = [] := List.eq_nil_of_length_eq_zero (by omega)
    rw [hnil]

theorem copyString_some {data bytes : List Byte} {p count : ℕ}
    (h : copyString data p count = some bytes) (hp : p ≤ data.length) :
    bytes.length = count ∧ Holds data p bytes ∧ p + count ≤ data.length := by
  unfold copyString at h
  split at h
  case isTrue =>
    obtain ⟨hin, hlen, hholds⟩ := Mem.load_some h
    exact ⟨hlen, hholds, hin⟩
  case isFalse hpos =>
    rw [← Option.some.inj h, List.length_nil]
    exact ⟨by omega, Mem.holds_nil, by omega⟩

/-! ## One field -/

section

variable [DoubleCodec] {data : List Byte} {st st' : UnpackState} {f : Field} {c : Char}

/-- **A field is read from its encoding.** -/
theorem unpackChar_of_holds (hblock : ¬ f.IsBlock) (hshort : f.Short)
    (hc : f.format = [c]) (hmax : st.maxlen = 0#32) (hholds : Holds data st.buf f.enc)
    (hin : st.buf + f.size ≤ data.length) :
    ∃ st', unpackChar data st c = some st' ∧ st'.buf = st.buf + f.size ∧
      st'.packedBytes = st.packedBytes + f.size ∧ st'.outs = st.outs ++ [some f.read] := by
  cases f with
  | i v =>
      obtain rfl := List.head_eq_of_cons_eq hc
      exact ⟨_, UnpackState.fixed_of_holds hholds hin
        (by rw [Field.enc, unpacki32_packi32]; rfl), rfl, rfl, rfl⟩
  | l v =>
      obtain rfl := List.head_eq_of_cons_eq hc
      exact ⟨_, UnpackState.fixed_of_holds hholds hin
        (by rw [Field.enc, unpacki64_packi64]; rfl), rfl, rfl, rfl⟩
  | g v =>
      obtain rfl := List.head_eq_of_cons_eq hc
      exact ⟨_, UnpackState.fixed_of_holds hholds hin
        (by rw [Field.enc, unpackguid_packguid]; rfl), rfl, rfl, rfl⟩
  | d v =>
      obtain rfl := List.head_eq_of_cons_eq hc
      have hread : (unpackguid (Field.d v).enc).map
          (fun w => Value.double (DoubleCodec.unpack754 w)) = some (Field.d v).read := by
        rw [Field.enc, packi64_eq_packguid, unpackguid_packguid]
        rfl
      exact ⟨_, UnpackState.fixed_of_holds hholds hin hread, rfl, rfl, rfl⟩
  | s v =>
      obtain rfl := List.head_eq_of_cons_eq hc
      obtain ⟨hlen, hbytes⟩ := Mem.holds_append.mp hholds
      have hw : (BitVec.ofNat 32 v.length).toNat = v.length := by
        change v.length ≤ intMax at hshort
        unfold intMax at hshort
        rw [BitVec.toNat_ofNat]
        omega
      simp only [Field.size] at hin
      have hread := UnpackState.readLen_of_holds hmax hlen (by omega)
      have hload := copyString_of_holds hbytes (by rw [length_packi32, ← CString.length]; omega)
      refine ⟨{ (st.advance 4).advance v.length with
        outs := st.outs ++ [some (.str v.bytes)], s := some st.outs.length }, ?_, ?_, ?_, rfl⟩
      · simp only [unpackChar, Char.reduceEq, if_false, if_true, hread, hw, Option.bind_eq_bind,
          Option.bind_some, UnpackState.advance]
        exact congrArg (Option.bind · _) hload
      · simp only [UnpackState.advance, Field.size]; omega
      · simp only [UnpackState.advance, Field.size]; omega
  | b k => exact absurd trivial hblock

/-- **A field's value determines its encoding.** -/
theorem holds_of_unpackChar (hblock : ¬ f.IsBlock) (hdouble : ¬ f.IsDouble)
    (hc : f.format = [c]) (hmax : st.maxlen = 0#32) (h : unpackChar data st c = some st') :
    ∃ o, st'.outs = st.outs ++ [o] ∧ (o = some f.arg → Holds data st.buf f.enc ∧
      st.buf + f.size ≤ data.length ∧ st'.buf = st.buf + f.size) := by
  cases f with
  | i v =>
      obtain rfl := List.head_eq_of_cons_eq hc
      obtain ⟨bytes, o, hholds, hin, _, hread, rfl⟩ := UnpackState.fixed_some h
      refine ⟨some o, rfl, fun ho => ⟨?_, hin, rfl⟩⟩
      obtain ⟨w, hw, rfl⟩ := Option.map_eq_some_iff.mp hread
      obtain rfl : w = v := by simpa [Field.arg] using ho
      rwa [Field.enc, packi32_of_unpacki32 hw]
  | l v =>
      obtain rfl := List.head_eq_of_cons_eq hc
      obtain ⟨bytes, o, hholds, hin, _, hread, rfl⟩ := UnpackState.fixed_some h
      refine ⟨some o, rfl, fun ho => ⟨?_, hin, rfl⟩⟩
      obtain ⟨w, hw, rfl⟩ := Option.map_eq_some_iff.mp hread
      obtain rfl : w = v := by simpa [Field.arg] using ho
      rwa [Field.enc, packi64_of_unpacki64 hw]
  | g v =>
      obtain rfl := List.head_eq_of_cons_eq hc
      obtain ⟨bytes, o, hholds, hin, _, hread, rfl⟩ := UnpackState.fixed_some h
      refine ⟨some o, rfl, fun ho => ⟨?_, hin, rfl⟩⟩
      obtain ⟨w, hw, rfl⟩ := Option.map_eq_some_iff.mp hread
      obtain rfl : w = v := by simpa [Field.arg] using ho
      rwa [Field.enc, packguid_of_unpackguid hw]
  | s v =>
      obtain rfl := List.head_eq_of_cons_eq hc
      simp only [unpackChar, Char.reduceEq, if_false, if_true, Option.bind_eq_bind] at h
      obtain ⟨⟨len, count⟩, hlen, h⟩ := Option.bind_eq_some_iff.mp h
      obtain ⟨copied, hload, h⟩ := Option.bind_eq_some_iff.mp h
      obtain ⟨w, hholds, hin, rfl, rfl⟩ := UnpackState.readLen_some hmax hlen
      obtain rfl := Option.some.inj h
      refine ⟨some (.str copied), rfl, fun ho => ?_⟩
      obtain rfl : copied = v.bytes := by simpa [Field.arg] using ho
      -- the bytes copied are the string, so the length read is the string's
      obtain ⟨hlen', hbytes, hin'⟩ := copyString_some hload hin
      change st.buf + 4 + w.toNat ≤ data.length at hin'
      have hw : BitVec.ofNat 32 v.length = w := by
        rw [CString.length, hlen', BitVec.ofNat_toNat, BitVec.setWidth_eq]
      refine ⟨Mem.holds_append.mpr ⟨by rwa [hw], hbytes⟩, ?_, ?_⟩
      · rw [Field.size, CString.length, hlen']; omega
      · simp only [UnpackState.advance, Field.size, CString.length, hlen']; omega
  | d v => exact absurd trivial hdouble
  | b k => exact absurd trivial hblock

/-! ## The loop -/

/-- **The encoding is read**: from the bytes that hold it the loop delivers what
is read of every field. -/
theorem unpackLoop_reads {fields : List Field} (hblock : ∀ f ∈ fields, ¬ f.IsBlock)
    (hshort : ∀ f ∈ fields, f.Short) (hmax : st.maxlen = 0#32)
    (hholds : Holds data st.buf (encAll fields)) (hin : st.buf + sizeOf' fields ≤ data.length) :
    ∃ st', unpackLoop data (formatOf fields) st = some st' ∧
      st'.packedBytes = st.packedBytes + sizeOf' fields ∧
      st'.outs = st.outs ++ fields.map fun f => some f.read := by
  induction fields generalizing st with
  | nil => exact ⟨st, rfl, rfl, by simp⟩
  | cons f fields ih =>
      obtain ⟨c, hc, hdigit⟩ := Field.format_letter (hblock f (by simp))
      rw [encAll_cons, Mem.holds_append, Field.length_enc] at hholds
      rw [sizeOf'_cons] at hin
      obtain ⟨st₁, hchar, hbuf₁, hpacked₁, houts₁⟩ := unpackChar_of_holds (hblock f (by simp))
        (hshort f (by simp)) hc hmax hholds.1 (by omega)
      obtain ⟨st₂, hloop, hpacked₂, houts₂⟩ :
          ∃ st₂, unpackLoop data (formatOf fields) { st₁ with maxlen := 0#32 } = some st₂ ∧
            st₂.packedBytes = st₁.packedBytes + sizeOf' fields ∧
            st₂.outs = st₁.outs ++ fields.map fun f => some f.read :=
        ih (fun f hf => hblock f (by simp [hf])) (fun f hf => hshort f (by simp [hf])) rfl
          (hbuf₁ ▸ hholds.2) (by simp only [hbuf₁]; omega)
      refine ⟨st₂, ?_, ?_, ?_⟩
      · rw [formatOf_cons, hc, List.singleton_append, unpackLoop, hchar]
        simpa [hdigit] using hloop
      · rw [hpacked₂, hpacked₁, sizeOf'_cons, Nat.add_assoc]
      · rw [houts₂, houts₁, List.map_cons, List.append_assoc]
        rfl

/-- **The encoding is read back**: from the bytes that hold it the loop
delivers every field's value. -/
theorem unpackLoop_of_holds {fields : List Field} (hblock : ∀ f ∈ fields, ¬ f.IsBlock)
    (hshort : ∀ f ∈ fields, f.Short) (hexact : ∀ f ∈ fields, f.Lossless)
    (hmax : st.maxlen = 0#32) (hholds : Holds data st.buf (encAll fields))
    (hin : st.buf + sizeOf' fields ≤ data.length) :
    ∃ st', unpackLoop data (formatOf fields) st = some st' ∧
      st'.packedBytes = st.packedBytes + sizeOf' fields ∧
      st'.outs = st.outs ++ fields.map fun f => some f.arg := by
  obtain ⟨st', hloop, hpacked, houts⟩ := unpackLoop_reads hblock hshort hmax hholds hin
  refine ⟨st', hloop, hpacked, houts.trans (congrArg (st.outs ++ ·) ?_)⟩
  exact List.map_congr_left fun f hf => congrArg some (hexact f hf).read_eq

/-- The loop only adds destinations, while there is no block. -/
theorem unpackLoop_outs {fields : List Field} (hblock : ∀ f ∈ fields, ¬ f.IsBlock)
    (hdouble : ∀ f ∈ fields, ¬ f.IsDouble) (hmax : st.maxlen = 0#32)
    (h : unpackLoop data (formatOf fields) st = some st') :
    ∃ outs, st'.outs = st.outs ++ outs ∧
      (outs = fields.map (fun f => some f.arg) → Holds data st.buf (encAll fields)) := by
  induction fields generalizing st with
  | nil =>
      obtain rfl := Option.some.inj h
      exact ⟨[], by simp, fun _ => Mem.holds_nil⟩
  | cons f fields ih =>
      obtain ⟨c, hc, hdigit⟩ := Field.format_letter (hblock f (by simp))
      rw [formatOf_cons, hc, List.singleton_append, unpackLoop] at h
      obtain ⟨st₁, hchar, hloop⟩ := Option.bind_eq_some_iff.mp h
      simp only [hdigit, Bool.false_eq_true, if_false] at hloop
      obtain ⟨o, houts₁, hfirst⟩ := holds_of_unpackChar (hblock f (by simp)) (hdouble f (by simp))
        hc hmax hchar
      obtain ⟨outs, houts₂, hrest⟩ := ih (fun f hf => hblock f (by simp [hf]))
        (fun f hf => hdouble f (by simp [hf])) (by rfl) hloop
      refine ⟨o :: outs, ?_, fun heq => ?_⟩
      · rw [houts₂, houts₁, List.append_assoc]
        rfl
      · obtain ⟨ho, houts⟩ := List.cons.inj heq
        obtain ⟨hholds, _, hbuf⟩ := hfirst ho
        rw [encAll_cons, Mem.holds_append, Field.length_enc, ← hbuf]
        exact ⟨hholds, hrest houts⟩

/-- **The values determine the encoding**: a loop that delivers every
field's value was reading the fields' encoding. -/
theorem holds_of_unpackLoop {fields : List Field} (hblock : ∀ f ∈ fields, ¬ f.IsBlock)
    (hdouble : ∀ f ∈ fields, ¬ f.IsDouble) (hmax : st.maxlen = 0#32)
    (h : unpackLoop data (formatOf fields) st = some st')
    (houts : st'.outs = st.outs ++ fields.map fun f => some f.arg) :
    Holds data st.buf (encAll fields) := by
  obtain ⟨outs, heq, hholds⟩ := unpackLoop_outs hblock hdouble hmax h
  exact hholds (List.append_cancel_left (heq.symm.trans houts))

/-! ## Blocks -/

/-- No character of a format fills a destination that was passed over, and a
`b` passes its own over. -/
theorem none_mem_of_unpackChar (h : unpackChar data st c = some st')
    (hnone : none ∈ st.outs ∨ c = 'b') : none ∈ st'.outs := by
  have hfixed : ∀ {n : ℕ} {read : List Byte → Option Value},
      st.fixed data n read = some st' → none ∈ st.outs → none ∈ st'.outs := by
    intro n read hread hmem
    obtain ⟨_, _, _, _, _, _, rfl⟩ := UnpackState.fixed_some hread
    exact List.mem_append_left _ hmem
  unfold unpackChar at h
  split_ifs at h with hi hl hg hd hs hb hdigit
  · exact hfixed h (hnone.resolve_right (by rintro rfl; simp at hi))
  · exact hfixed h (hnone.resolve_right (by rintro rfl; simp at hl))
  · exact hfixed h (hnone.resolve_right (by rintro rfl; simp at hg))
  · exact hfixed h (hnone.resolve_right (by rintro rfl; simp at hd))
  · obtain ⟨_, _, h⟩ := Option.bind_eq_some_iff.mp h
    obtain ⟨_, _, h⟩ := Option.bind_eq_some_iff.mp h
    obtain rfl := Option.some.inj h
    exact List.mem_append_left _ (hnone.resolve_right (by rintro rfl; simp at hs))
  · obtain ⟨_, _, h⟩ := Option.bind_eq_some_iff.mp h
    obtain ⟨_, _, h⟩ := Option.bind_eq_some_iff.mp h
    obtain ⟨_, _, h⟩ := Option.bind_eq_some_iff.mp h
    obtain rfl := Option.some.inj h
    exact List.mem_append_right _ (by simp)
  · obtain rfl := Option.some.inj h
    exact hnone.resolve_right hb
  · obtain rfl := Option.some.inj h
    exact hnone.resolve_right hb

/-- **A block is not delivered**: once the format has a `b`, some
destination stays as it was. -/
theorem none_mem_of_unpackLoop {format : List Char} (h : unpackLoop data format st = some st')
    (hnone : none ∈ st.outs ∨ 'b' ∈ format) : none ∈ st'.outs := by
  induction format generalizing st with
  | nil =>
      obtain rfl := Option.some.inj h
      exact hnone.resolve_right (by simp)
  | cons c format ih =>
      obtain ⟨st₁, hchar, hloop⟩ := Option.bind_eq_some_iff.mp h
      have hkeep := none_mem_of_unpackChar hchar
      apply ih hloop
      rcases hnone with hmem | hmem
      · exact .inl (hkeep (.inl hmem))
      · rcases List.mem_cons.mp hmem with hb | hmem
        · exact .inl (hkeep (.inr hb.symm))
        · exact .inr hmem

end

end SosFlow
