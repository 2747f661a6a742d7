import SosFlow.Buffer.Basic
import Mathlib.Data.List.TakeWhile

/-!
# A format as a list of fields

A call of the serializer that respects its format is a list of fields, each
a letter with the argument that goes with it. `Field.enc` is what a field
is meant to look like on the wire, and `packLoop_field` is the packing loop
one whole field at a time: for every field but a block the loop stores
exactly the encoding, through the growth a string makes first.
-/

namespace SosFlow

/-- **A block with its count**: the decimal digits in front of a `b`, and a
block of that many bytes. -/
structure SizedBlock where
  digits : List Char
  block : List Byte
  digits_ne : digits ≠ []
  isDigit : ∀ c ∈ digits, c.isDigit
  count_eq : digits.foldl (fun n c => n * 10 + (c.toNat - '0'.toNat)) 0 = block.length

/-- **A field**: a format letter and its argument. -/
inductive Field where
  | i (v : CInt)
  | l (v : CLong)
  | d (v : Double)
  | g (v : SosGuid)
  | s (v : CString)
  | b (v : SizedBlock)

namespace Field

/-- The characters of the format that ask for the field. -/
def format : Field → List Char
  | i _ => ['i']
  | l _ => ['l']
  | d _ => ['d']
  | g _ => ['g']
  | s _ => ['s']
  | b k => k.digits ++ ['b']

/-- The argument passed for the field. -/
def arg : Field → Value
  | i v => .int v
  | l v => .long v
  | d v => .double v
  | g v => .guid v
  | s v => .str v.bytes
  | b k => .bytes k.block

/-- The field is a raw block. -/
def IsBlock : Field → Prop
  | b _ => True
  | _ => False

/-- The field is a double. -/
def IsDouble : Field → Prop
  | d _ => True
  | _ => False

instance : DecidablePred IsBlock := fun f => by cases f <;> simp only [IsBlock] <;> infer_instance

instance : DecidablePred IsDouble := fun f => by cases f <;> simp only [IsDouble] <;> infer_instance

/-- The bytes of a block field: an empty block goes out as one zero byte. -/
def blockBytes (k : SizedBlock) : List Byte := if k.block.length < 1 then [0] else k.block

/-- The number of bytes the field takes on the wire. -/
def size : Field → ℕ
  | i _ => 4
  | l _ => 8
  | d _ => 8
  | g _ => 8
  | s v => 4 + v.length
  | b k => 4 + (blockBytes k).length

section

variable [DoubleCodec]

/-- **The encoding of a field**: integers big-endian, strings and blocks
behind their length. -/
def enc : Field → List Byte
  | i v => packi32 v
  | l v => packi64 v
  | d v => packi64 (DoubleCodec.pack754 v)
  | g v => packguid v
  | s v => packi32 (BitVec.ofNat 32 v.length) ++ v.bytes
  | b k => packi32 (BitVec.ofNat 32 (blockBytes k).length) ++ blockBytes k

@[simp] theorem length_enc (f : Field) : f.enc.length = f.size := by
  cases f <;> simp [enc, size, CString.length]

theorem enc_ne_nil (f : Field) : f.enc ≠ [] := by
  intro h
  have hlen := length_enc f
  rw [h, List.length_nil] at hlen
  cases f <;> simp only [size] at hlen <;> omega

end

/-- The length of a string field fits an `int`. -/
def Short : Field → Prop
  | s v => v.length ≤ intMax
  | _ => True

end Field

/-- The format string of a list of fields. -/
def formatOf (fields : List Field) : List Char := fields.flatMap Field.format

/-- The arguments of a list of fields. -/
def argsOf (fields : List Field) : List Value := fields.map Field.arg

/-- The letter of a field that is no block, which is no digit. -/
theorem Field.format_letter {f : Field} (hblock : ¬ f.IsBlock) :
    ∃ c, f.format = [c] ∧ c.isDigit = false := by
  cases f with
  | b k => exact absurd trivial hblock
  | _ => exact ⟨_, rfl, rfl⟩

@[simp] theorem formatOf_cons (f : Field) (fields : List Field) :
    formatOf (f :: fields) = f.format ++ formatOf fields := rfl

@[simp] theorem argsOf_cons (f : Field) (fields : List Field) :
    argsOf (f :: fields) = f.arg :: argsOf fields := rfl

/-- The number of bytes a list of fields takes on the wire. -/
def sizeOf' (fields : List Field) : ℕ := (fields.map Field.size).sum

section

variable [DoubleCodec]

/-- The encoding of a list of fields. -/
def encAll (fields : List Field) : List Byte := fields.flatMap Field.enc

@[simp] theorem encAll_nil : encAll [] = [] := rfl

@[simp] theorem encAll_cons (f : Field) (fields : List Field) :
    encAll (f :: fields) = f.enc ++ encAll fields := rfl

@[simp] theorem length_encAll (fields : List Field) :
    (encAll fields).length = sizeOf' fields := by
  simp [encAll, sizeOf', List.length_flatMap]

end

@[simp] theorem sizeOf'_nil : sizeOf' [] = 0 := rfl

@[simp] theorem sizeOf'_cons (f : Field) (fields : List Field) :
    sizeOf' (f :: fields) = f.size + sizeOf' fields := by
  simp [sizeOf']

/-! ## One write at the pointer -/

theorem SosBuffer.store_some {b b' : SosBuffer} {p : ℕ} {xs : List Byte}
    (h : b.store p xs = some b') :
    Mem.store b.data p xs = some b'.data ∧ b'.len = b.len := by
  unfold SosBuffer.store at h
  split at h
  case h_1 data hdata =>
    obtain rfl := Option.some.inj h
    exact ⟨hdata, rfl⟩
  case h_2 => cases h

theorem SosBuffer.store_of_mem {b b' : SosBuffer} {p : ℕ} {xs : List Byte}
    (h : Mem.store b.data p xs = some b'.data) (hlen : b'.len = b.len) :
    b.store p xs = some b' := by
  unfold SosBuffer.store
  split
  case h_1 data hdata =>
    rw [h, Option.some_inj] at hdata
    exact congrArg some (SosBuffer.ext' hdata.symm hlen.symm)
  case h_2 hnone => rw [h] at hnone; cases hnone

theorem SosBuffer.store_none {b : SosBuffer} {p : ℕ} {xs : List Byte}
    (h : Mem.store b.data p xs = none) : b.store p xs = none := by
  unfold SosBuffer.store
  split
  case h_1 data hdata => rw [h] at hdata; cases hdata
  case h_2 => rfl

namespace PackState

variable {st st' : PackState} {xs ys : List Byte}

/-- **What one write does**: the bytes stored in place, the pointer and the
count moved, everything else as it was. -/
theorem put_some (h : st.put xs = some st') :
    Mem.store st.buffer.data st.buf xs = some st'.buffer.data ∧
      st'.buffer.len = st.buffer.len ∧ st'.buf = st.buf + xs.length ∧
      st'.packedBytes = st.packedBytes + xs.length ∧ st'.datalen = st.datalen := by
  obtain ⟨b, hb, rfl⟩ := Option.map_eq_some_iff.mp h
  obtain ⟨hdata, hlen⟩ := SosBuffer.store_some hb
  exact ⟨hdata, hlen, rfl, rfl, rfl⟩

/-- A write that fits happens. -/
theorem put_eq (h : st.buf + xs.length ≤ st.buffer.max) : ∃ st', st.put xs = some st' := by
  have hstore := @Mem.store_eq _ st.buffer.data st.buf xs h
  have hlen := Mem.length_store hstore
  refine ⟨_, Option.map_eq_some_iff.mpr
    ⟨⟨_, st.buffer.len, hlen ▸ st.buffer.max_le⟩, SosBuffer.store_of_mem hstore rfl, rfl⟩⟩

/-- A write that happened fitted. -/
theorem put_bound (h : st.put xs = some st') : st.buf + xs.length ≤ st.buffer.max :=
  Mem.store_bound (put_some h).1

/-- A write changes no capacity. -/
theorem put_max (h : st.put xs = some st') : st'.buffer.max = st.buffer.max :=
  Mem.length_store (put_some h).1

/-- A write fails exactly when its store does. -/
theorem put_none (st : PackState) (xs : List Byte) :
    st.put xs = none ↔ Mem.store st.buffer.data st.buf xs = none := by
  constructor
  · intro h
    by_contra hne
    obtain ⟨m, hm⟩ := Option.ne_none_iff_exists'.mp hne
    obtain ⟨st', hst'⟩ := put_eq (Mem.store_bound hm)
    rw [h] at hst'
    cases hst'
  · intro h
    rw [PackState.put, SosBuffer.store_none h]
    rfl

theorem put_nil (h : st.buf ≤ st.buffer.max) : st.put [] = some st := by
  obtain ⟨st', hst'⟩ := @put_eq st [] h
  obtain ⟨hdata, hlen, hbuf, hpacked, hcount⟩ := put_some hst'
  have hsame : st'.buffer = st.buffer := by
    obtain ⟨_, heq⟩ := Mem.store_some hdata
    exact SosBuffer.ext' (by simpa using heq) hlen
  rw [hst', Option.some_inj]
  cases st
  cases st'
  simp_all

/-- **Two writes in a row are one.** -/
theorem put_append (st : PackState) (xs ys : List Byte) :
    st.put (xs ++ ys) = (st.put xs).bind fun st' => st'.put ys := by
  have hsplit := Mem.store_append st.buffer.data st.buf xs ys
  cases hx : st.put xs with
  | none =>
      rw [(put_none st xs).mp hx, Option.bind_none] at hsplit
      exact (put_none st _).mpr hsplit
  | some st₁ =>
      obtain ⟨hdata, hlen, hbuf, hpacked, hcount⟩ := put_some hx
      rw [hdata, Option.bind_some, ← hbuf] at hsplit
      rw [Option.bind_some]
      cases hy : st₁.put ys with
      | none => exact (put_none st _).mpr (hsplit.trans ((put_none st₁ ys).mp hy))
      | some st₂ =>
          obtain ⟨hdata', hlen', hbuf', hpacked', hcount'⟩ := put_some hy
          have hstore := SosBuffer.store_of_mem (hsplit.trans hdata') (hlen'.trans hlen)
          rw [PackState.put, hstore, Option.map_some, Option.some_inj, List.length_append]
          cases st₂
          simp_all
          omega

end PackState

/-! ## One field of the packing loop -/

theorem strlen_cstring (s : CString) : strlen s.bytes = s.length := by
  have hall : s.bytes.takeWhile (· ≠ 0) = s.bytes :=
    List.takeWhile_eq_self_iff.mpr fun x hx => decide_eq_true (s.nonzero x hx)
  rw [strlen, hall, CString.length]

theorem toInt_of_le {n : ℕ} (h : n ≤ intMax) : toInt n = n := by
  unfold intMax at h
  rw [toInt, BitVec.toInt_ofNat', Int.bmod_eq_of_le] <;> omega

/-- The growth in front of a string changes no count. -/
theorem PackState.growForString_some {st st' : PackState} {offset : ℕ} {len : ℕ}
    (h : st.growForString offset len = some st') :
    (offset + len < st.buffer.max ∧ st' = st) ∨
      (st.buffer.max ≤ offset + len ∧ ∃ b,
        sosBufferGrow st.buffer (len + sosDefaultBufferMax) = some b ∧
        st' = { st with buffer := b, buf := offset }) := by
  unfold PackState.growForString at h
  split at h
  case isTrue hge =>
    obtain ⟨b, hb, rfl⟩ := Option.map_eq_some_iff.mp h
    exact .inr ⟨by omega, b, hb, rfl⟩
  case isFalse hlt => exact .inl ⟨by omega, (Option.some.inj h).symm⟩

section

variable [DoubleCodec]

/-- **One field written**: a string after the growth in front of it, every
other field where the pointer stands. -/
def PackState.putField (offset : ℕ) (st : PackState) (f : Field) : Option PackState :=
  match f with
  | .s v => (st.growForString offset v.length).bind fun st => st.put f.enc
  | f => st.put f.enc

/-- The fields of a call written one after the other. -/
def PackState.putFields (offset : ℕ) : PackState → List Field → Option PackState
  | st, [] => some st
  | st, f :: fields => (st.putField offset f).bind fun st => st.putFields offset fields

/-- A field leaves no count behind. -/
theorem PackState.putField_datalen {offset : ℕ} {st st' : PackState} {f : Field}
    (h : st.putField offset f = some st') : st'.datalen = st.datalen := by
  unfold PackState.putField at h
  split at h
  case h_1 v =>
    obtain ⟨st₁, hgrow, hput⟩ := Option.bind_eq_some_iff.mp h
    have hcount := (PackState.put_some hput).2.2.2.2
    rcases PackState.growForString_some hgrow with ⟨_, rfl⟩ | ⟨_, b, _, rfl⟩
    · exact hcount
    · exact hcount
  case h_2 => exact (PackState.put_some h).2.2.2.2

/-- **The switch takes a field at a time**: the letter of a field that is no
block, met with the field's argument, writes the field. -/
theorem packChar_field {offset : ℕ} {st : PackState} {f : Field} (hblock : ¬ f.IsBlock)
    (hshort : f.Short) {c : Char} (hc : f.format = [c]) (args : List Value) :
    packChar offset st c (f.arg :: args) = (st.putField offset f).map (·, args) := by
  cases f with
  | i v => obtain rfl := List.head_eq_of_cons_eq hc; rfl
  | l v => obtain rfl := List.head_eq_of_cons_eq hc; rfl
  | d v => obtain rfl := List.head_eq_of_cons_eq hc; rfl
  | g v => obtain rfl := List.head_eq_of_cons_eq hc; rfl
  | s v =>
      obtain rfl := List.head_eq_of_cons_eq hc
      have hlen : toInt (strlen v.bytes) = v.length := by
        rw [strlen_cstring, toInt_of_le hshort]
      have hall : v.bytes.take v.length = v.bytes := List.take_length
      -- the switch writes the length and the bytes by themselves, the field at once
      simp only [Field.arg, packChar, hlen, PackState.putField, Field.enc, PackState.put_append,
        BitVec.ofInt_natCast, Int.toNat_natCast, hall, if_neg (Int.not_lt.mpr (Int.natCast_nonneg _)),
        Char.reduceEq, if_false, if_true, Option.bind_eq_bind, Option.map_bind]
      congr 1
      funext st₁
      rw [Function.comp, Option.map_bind]
      rfl
  | b k => exact absurd trivial hblock

/-- **The loop takes a field at a time**, and leaves no digit count behind. -/
theorem packLoop_field {offset : ℕ} {st : PackState} {f : Field} (hblock : ¬ f.IsBlock)
    (hshort : f.Short) (hcount : st.datalen = 0#32) (format : List Char) (args : List Value) :
    packLoop offset (f.format ++ format) (f.arg :: args) st =
      (st.putField offset f).bind fun st => packLoop offset format args st := by
  obtain ⟨c, hc, hdigit⟩ := f.format_letter hblock
  rw [hc, List.singleton_append, packLoop, packChar_field hblock hshort hc]
  cases h : st.putField offset f with
  | none => rfl
  | some st' =>
      have hclear : ({ st' with datalen := 0#32 } : PackState) = st' := by
        rw [← hcount, ← PackState.putField_datalen h]
      simp [hdigit, hclear]

/-- **Packing without blocks** writes the fields one after the other. -/
theorem packLoop_fields {offset : ℕ} {st : PackState} {fields : List Field}
    (hblock : ∀ f ∈ fields, ¬ f.IsBlock) (hshort : ∀ f ∈ fields, f.Short)
    (hcount : st.datalen = 0#32) :
    packLoop offset (formatOf fields) (argsOf fields) st = st.putFields offset fields := by
  induction fields generalizing st with
  | nil => rfl
  | cons f fields ih =>
      rw [formatOf_cons, argsOf_cons, packLoop_field (hblock f (by simp)) (hshort f (by simp)) hcount,
        PackState.putFields]
      cases h : st.putField offset f with
      | none => rfl
      | some st' =>
          exact ih (fun f hf => hblock f (by simp [hf])) (fun f hf => hshort f (by simp [hf]))
            ((PackState.putField_datalen h).trans hcount)

end

/-! ## Strings whose length is no `int` -/

/-- What is packed of a string: as much as its length says, as an `int`. -/
def CString.clip (v : CString) : CString := v.take (toInt v.length).toNat

/-- The length of a string field is not negative as an `int`. -/
def Field.Counted : Field → Prop
  | s v => 0 ≤ toInt v.length
  | _ => True

/-- What is packed of a field. -/
def Field.clip : Field → Field
  | s v => s v.clip
  | f => f

theorem toInt_toNat_le (n : ℕ) : (toInt n).toNat ≤ n ∧ (toInt n).toNat ≤ intMax := by
  have hle : (toInt n).toNat ≤ n := by
    have hnat := BitVec.toNat_ofNat n 32
    have hcases := BitVec.toInt_eq_toNat_cond (BitVec.ofNat 32 n)
    unfold toInt
    split at hcases <;> omega
  have hlt : toInt n < 2 ^ 31 := BitVec.toInt_lt
  unfold intMax
  omega

namespace CString

variable {v : CString}

theorem length_clip (v : CString) : v.clip.length = (toInt v.length).toNat :=
  (List.length_take).trans (min_eq_left (toInt_toNat_le v.length).1)

/-- What is packed has a length that is an `int`. -/
theorem length_clip_le (v : CString) : v.clip.length ≤ intMax := by
  rw [length_clip]
  exact (toInt_toNat_le v.length).2

/-- **All of a string is packed** if and only if its length is an `int`. -/
theorem clip_eq_iff : v.clip = v ↔ v.length ≤ intMax := by
  constructor
  · intro h
    rw [← h]
    exact length_clip_le v
  · intro h
    refine take_of_length_le ?_
    rw [toInt_of_le h, Int.toNat_natCast]

theorem toInt_length_clip (h : 0 ≤ toInt v.length) : toInt v.clip.length = toInt v.length := by
  rw [toInt_of_le (length_clip_le v), length_clip, Int.toNat_of_nonneg h]

end CString

theorem Field.short_clip (f : Field) : f.clip.Short := by
  cases f with
  | s v => exact CString.length_clip_le v
  | _ => trivial

theorem Field.format_clip (f : Field) : f.clip.format = f.format := by
  cases f <;> rfl

theorem Field.not_isBlock_clip {f : Field} (h : ¬ f.IsBlock) : ¬ f.clip.IsBlock := by
  cases f <;> exact h

section

variable [DoubleCodec] {offset : ℕ} {st st' : PackState}

/-- **A string is packed as what its length leaves of it.** -/
theorem packChar_clip {f : Field} (hcounted : f.Counted) {c : Char} (hc : f.format = [c])
    (args : List Value) :
    packChar offset st c (f.arg :: args) = packChar offset st c (f.clip.arg :: args) := by
  cases f with
  | s v =>
      obtain rfl := List.head_eq_of_cons_eq hc
      have hlen := CString.toInt_length_clip hcounted
      have hbytes : v.clip.bytes.take (toInt v.length).toNat = v.bytes.take (toInt v.length).toNat := by
        rw [CString.clip, CString.take, List.take_take, min_self]
      simp only [Field.arg, Field.clip, packChar, Char.reduceEq, if_false, if_true,
        strlen_cstring, hlen, hbytes]
  | _ => rfl

/-- A string with a negative length is not packed. -/
theorem counted_of_packChar {f : Field} {c : Char} (hc : f.format = [c]) {args : List Value}
    {r : PackState × List Value} (h : packChar offset st c (f.arg :: args) = some r) :
    f.Counted := by
  cases f with
  | s v =>
      obtain rfl := List.head_eq_of_cons_eq hc
      by_contra hneg
      have hlt : toInt v.length < 0 := not_le.mp hneg
      simp only [Field.arg, packChar, Char.reduceEq, if_false, if_true, strlen_cstring,
        if_pos hlt, Option.bind_eq_bind, Option.bind_fun_none] at h
      cases h
  | _ => trivial

/-- **One field of the loop**, as what its length leaves of it. -/
theorem packLoop_field_clip {f : Field} (hblock : ¬ f.IsBlock) (hcounted : f.Counted)
    (hcount : st.datalen = 0#32) (format : List Char) (args : List Value) :
    packLoop offset (f.format ++ format) (f.arg :: args) st =
      (st.putField offset f.clip).bind fun st => packLoop offset format args st := by
  obtain ⟨c, hc, -⟩ := f.format_letter hblock
  rw [← packLoop_field (Field.not_isBlock_clip hblock) f.short_clip hcount, Field.format_clip, hc,
    List.singleton_append, packLoop, packLoop, packChar_clip hcounted hc]

/-- **Packing without blocks** packs what their lengths leave of the strings. -/
theorem packLoop_clip {fields : List Field} (hblock : ∀ f ∈ fields, ¬ f.IsBlock)
    (hcounted : ∀ f ∈ fields, f.Counted) (hcount : st.datalen = 0#32) :
    packLoop offset (formatOf fields) (argsOf fields) st =
      st.putFields offset (fields.map Field.clip) := by
  induction fields generalizing st with
  | nil => rfl
  | cons f fields ih =>
      rw [formatOf_cons, argsOf_cons, List.map_cons, PackState.putFields,
        packLoop_field_clip (hblock f (by simp)) (hcounted f (by simp)) hcount]
      cases h : st.putField offset f.clip with
      | none => rfl
      | some st' =>
          exact ih (fun f hf => hblock f (by simp [hf])) (fun f hf => hcounted f (by simp [hf]))
            ((PackState.putField_datalen h).trans hcount)

/-- **No string with a negative length is packed.** -/
theorem counted_of_packLoop {fields : List Field} (hblock : ∀ f ∈ fields, ¬ f.IsBlock)
    (hcount : st.datalen = 0#32)
    (h : packLoop offset (formatOf fields) (argsOf fields) st = some st') :
    ∀ f ∈ fields, f.Counted := by
  induction fields generalizing st with
  | nil => exact fun f hf => absurd hf List.not_mem_nil
  | cons f fields ih =>
      have hf := hblock f (by simp)
      have hcounted : f.Counted := by
        obtain ⟨c, hc, -⟩ := f.format_letter hf
        rw [formatOf_cons, argsOf_cons, hc, List.singleton_append, packLoop] at h
        obtain ⟨r, hchar, -⟩ := Option.bind_eq_some_iff.mp h
        exact counted_of_packChar hc hchar
      rw [formatOf_cons, argsOf_cons, packLoop_field_clip hf hcounted hcount] at h
      obtain ⟨st₁, hput, hrest⟩ := Option.bind_eq_some_iff.mp h
      have hcount₁ := (PackState.putField_datalen hput).trans hcount
      exact List.forall_mem_cons.mpr
        ⟨hcounted, ih (fun f hf => hblock f (by simp [hf])) hcount₁ hrest⟩

end

end SosFlow
