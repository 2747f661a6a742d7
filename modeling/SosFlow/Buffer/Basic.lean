import SosFlow.Buffer.Codec

/-!
# `SOS_buffer`, `SOS_buffer_pack` and `SOS_buffer_unpack`

The serializer is two interpreters of one format string. Both walk it
character by character, take an argument of the C type the letter names,
and move a pointer into `buffer->data` along. The model keeps the three
things each of them carries: the pointer (`buf`, as an index into the
data), the running `packed_bytes`, and the digit count in front of a letter.

An access outside the data, an arithmetic result outside `int`, a `va_arg`
of the wrong type and an allocation that cannot succeed end the call in
`none`. Strings handed to `SOS_buffer_unpack` stand for memory large enough
for whatever is copied into them.
-/

namespace SosFlow

/-- **`SOS_buffer`.** `max` is the size of the allocation behind `data`, an
`int`; `len` is the `int` the writers keep, and nothing ties it to `max`. -/
structure SosBuffer where
  data : List Byte
  len : ℤ
  max_le : data.length ≤ intMax
deriving DecidableEq

namespace SosBuffer

/-- `buffer->max`. -/
def max (b : SosBuffer) : ℕ := b.data.length

theorem max_le_intMax (b : SosBuffer) : b.max ≤ intMax := b.max_le

/-- The buffer with other bytes in the same allocation. -/
def store (b : SosBuffer) (p : ℕ) (xs : List Byte) : Option SosBuffer :=
  match h : Mem.store b.data p xs with
  | some data => some ⟨data, b.len, Mem.length_store h ▸ b.max_le⟩
  | none => none

/-- The buffer with another `len`. -/
def setLen (b : SosBuffer) (len : ℤ) : SosBuffer := { b with len }

@[simp] theorem setLen_data (b : SosBuffer) (len : ℤ) : (b.setLen len).data = b.data := rfl

@[simp] theorem setLen_len (b : SosBuffer) (len : ℤ) : (b.setLen len).len = len := rfl

@[simp] theorem setLen_max (b : SosBuffer) (len : ℤ) : (b.setLen len).max = b.max := rfl

theorem ext' {b c : SosBuffer} (hdata : b.data = c.data) (hlen : b.len = c.len) : b = c := by
  cases b; cases c; simp_all

end SosBuffer

/-- `SOS_buffer_init_sized_locking`: `max_size` zeroed bytes. -/
def sosBufferInitSized (maxSize : ℕ) (h : maxSize ≤ intMax) : SosBuffer where
  data := List.replicate maxSize 0
  len := 0
  max_le := by rwa [List.length_replicate]

/-- `SOS_buffer_init`. -/
def sosBufferInit : SosBuffer := sosBufferInitSized sosDefaultBufferMax (by decide)

/-- `SOS_buffer_wipe`. -/
def sosBufferWipe (b : SosBuffer) : SosBuffer where
  data := List.replicate b.max 0
  len := 0
  max_le := by rw [List.length_replicate]; exact b.max_le

/-- `SOS_buffer_grow`: one byte more than asked for, all of them zero. A
`max` past `INT_MAX` turns negative, and the `realloc` of it fails. -/
def sosBufferGrow (b : SosBuffer) (growAmount : ℕ) : Option SosBuffer :=
  if h : b.max + (growAmount + 1) ≤ intMax then
    some ⟨b.data ++ List.replicate (growAmount + 1) 0, b.len, by
      rw [List.length_append, List.length_replicate]; exact h⟩
  else none

/-! ## The arguments -/

/-- **An argument of a variadic call**, by the C type it is passed as. A
`bytes` argument is the memory its pointer reaches. -/
inductive Value where
  | int (i : CInt)
  | long (l : CLong)
  | double (d : Double)
  | guid (g : SosGuid)
  | str (s : List Byte)
  | bytes (b : List Byte)
deriving DecidableEq

/-- `strlen`: the bytes before the first zero. -/
def strlen (s : List Byte) : ℕ := (s.takeWhile (· ≠ 0)).length

/-- A length as the `int` the code keeps it in. -/
def toInt (n : ℕ) : ℤ := (BitVec.ofNat 32 n).toInt

/-- `datalen * 10 + (*format - '0')`, in `unsigned int`. -/
def nextDigit (datalen : BitVec 32) (c : Char) : BitVec 32 :=
  datalen * 10 + BitVec.ofNat 32 (c.toNat - '0'.toNat)

/-! ## Packing -/

/-- What `SOS_buffer_pack` carries from one format character to the next. -/
structure PackState where
  buffer : SosBuffer
  buf : ℕ
  packedBytes : ℕ
  datalen : BitVec 32

/-- One write at the pointer: the bytes stored, then `buf` and
`packed_bytes` advanced past them. -/
def PackState.put (st : PackState) (xs : List Byte) : Option PackState :=
  (st.buffer.store st.buf xs).map fun buffer =>
    { st with buffer, buf := st.buf + xs.length, packedBytes := st.packedBytes + xs.length }

/-- The growth in front of a string. The pointer is taken again from
`*offset`, whatever had been packed by then. -/
def PackState.growForString (st : PackState) (offset : ℕ) (len : ℤ) : Option PackState :=
  if (offset : ℤ) + len ≥ st.buffer.max then
    (sosBufferGrow st.buffer (len + sosDefaultBufferMax).toNat).map fun buffer =>
      { st with buffer, buf := offset }
  else some st

section

variable [DoubleCodec]

/-- The `switch` of `SOS_buffer_pack`: one format character. -/
def packChar (offset : ℕ) (st : PackState) (c : Char) (args : List Value) :
    Option (PackState × List Value) :=
  if c = 'i' then
    match args with
    | .int i :: args => (st.put (packi32 i)).map (·, args)
    | _ => none
  else if c = 'l' then
    match args with
    | .long l :: args => (st.put (packi64 l)).map (·, args)
    | _ => none
  else if c = 'd' then
    match args with
    | .double d :: args => (st.put (packi64 (DoubleCodec.pack754 d))).map (·, args)
    | _ => none
  else if c = 'g' then
    match args with
    | .guid g :: args => (st.put (packguid g)).map (·, args)
    | _ => none
  else if c = 's' then
    match args with
    | .str s :: args => do
        let len := toInt (strlen s)
        let st ← st.growForString offset len
        let st ← st.put (packi32 (BitVec.ofInt 32 len))
        -- a negative length is a `size_t` no object has
        if len < 0 then none
        else (st.put (s.take len.toNat)).map (·, args)
    | _ => none
  else if c = 'b' then
    match args with
    | .bytes b :: args => do
        let len := st.datalen.toInt
        let (len, b) := if len < 1 then (1, [0]) else (len.toNat, b)
        let st ← st.put (packi32 (BitVec.ofNat 32 len))
        if len ≤ b.length then (st.put (b.take len)).map (·, args) else none
    | _ => none
  else if c.isDigit then some ({ st with datalen := nextDigit st.datalen c }, args)
  else some (st, args)

/-- The `for` loop of `SOS_buffer_pack`. A character that is no digit ends
the count in front of it. -/
def packLoop (offset : ℕ) : List Char → List Value → PackState → Option PackState
  | [], _, st => some st
  | c :: format, args, st => do
      let (st, args) ← packChar offset st c args
      packLoop offset format args { st with datalen := if c.isDigit then st.datalen else 0 }

/-- What a call of the serializer leaves its caller: the buffer, the
advanced offset and the returned byte count. -/
structure PackResult where
  buffer : SosBuffer
  offset : ℕ
  packedBytes : ℕ

/-- The growth both writers make first, when the offset lies in the buffer's
upper half: by the offset itself in `SOS_buffer_pack`. -/
def growForOffset (b : SosBuffer) (offset growAmount : ℕ) : Option SosBuffer :=
  if offset > b.max / 2 then sosBufferGrow b growAmount else some b

/-- The end of a packing call: `*offset` advanced, `len` raised to it. -/
def PackState.finish (st : PackState) (offset : ℕ) : Option PackResult :=
  if offset + st.packedBytes ≤ intMax then
    some ⟨st.buffer.setLen (Max.max st.buffer.len (offset + st.packedBytes : ℕ)),
      offset + st.packedBytes, st.packedBytes⟩
  else none

/-- **`SOS_buffer_pack`.** -/
def sosBufferPack (b : SosBuffer) (offset : ℕ) (format : List Char) (args : List Value) :
    Option PackResult := do
  let b ← growForOffset b offset offset
  let st ← packLoop offset format args ⟨b, offset, 0, 0⟩
  st.finish offset

/-- The loop of `SOS_buffer_pack_bytes`, which grows until the block fits or
until it is one byte short of fitting. Each turn adds more than
`SOS_DEFAULT_BUFFER_MAX`, so `INT_MAX` ends it within `fuel` turns. -/
def growForBytes (need : ℕ) : ℕ → SosBuffer → Option SosBuffer
  | 0, _ => none
  | fuel + 1, b =>
      if need > b.max + 1 then (sosBufferGrow b sosDefaultBufferMax).bind (growForBytes need fuel)
      else some b

/-- **`SOS_buffer_pack_bytes`**, of the `byte_count` bytes `source` points to. -/
def sosBufferPackBytes (b : SosBuffer) (offset : ℕ) (source : List Byte) : Option PackResult := do
  let source := if source.length < 1 then [0] else source
  let b ← growForOffset b offset sosDefaultBufferMax
  let b ← growForBytes (offset + 4 + source.length) (intMax / sosDefaultBufferMax + 1) b
  let st ← PackState.put ⟨b, offset, 0, 0⟩ (packi32 (BitVec.ofNat 32 source.length))
  let st ← st.put source
  st.finish offset

/-! ## Unpacking -/

/-- What `SOS_buffer_unpack` carries. `outs` are the destinations filled so
far, one for each field, `none` for one that nothing was stored in; `s` is
the destination the variable `s` was last set to. -/
structure UnpackState where
  buf : ℕ
  packedBytes : ℕ
  maxlen : BitVec 32
  outs : List (Option Value)
  s : Option ℕ

/-- The pointer and the byte count moved past a field of `n` bytes. -/
def UnpackState.advance (st : UnpackState) (n : ℕ) : UnpackState :=
  { st with buf := st.buf + n, packedBytes := st.packedBytes + n }

/-- A fixed-width field read into its destination. -/
def UnpackState.fixed (st : UnpackState) (data : List Byte) (n : ℕ)
    (read : List Byte → Option Value) : Option UnpackState := do
  let bytes ← Mem.load data st.buf n
  let v ← read bytes
  some { st.advance n with outs := st.outs ++ [some v] }

/-- The length in front of a string or a block, and the count of bytes that
are copied of it: `maxlen - 1` of a longer one, when there is a `maxlen`. -/
def UnpackState.readLen (st : UnpackState) (data : List Byte) : Option (ℕ × ℕ) := do
  let len ← unpacki32 (← Mem.load data st.buf 4)
  some (len.toNat, if st.maxlen > 0 ∧ len > st.maxlen then (st.maxlen - 1).toNat else len.toNat)

/-- The guarded `memcpy` of a string. -/
def copyString (data : List Byte) (p count : ℕ) : Option (List Byte) :=
  if count > 0 then Mem.load data p count else some []

/-- `memcpy` onto the front of a destination. -/
def copyOver (bytes : List Byte) : Value → Value
  | .str old => .str (bytes ++ old.drop bytes.length)
  | v => v

/-- The `switch` of `SOS_buffer_unpack`: one format character. -/
def unpackChar (data : List Byte) (st : UnpackState) (c : Char) : Option UnpackState :=
  if c = 'i' then st.fixed data 4 fun bs => (unpacki32 bs).map .int
  else if c = 'l' then st.fixed data 8 fun bs => (unpacki64 bs).map .long
  else if c = 'g' then st.fixed data 8 fun bs => (unpackguid bs).map .guid
  else if c = 'd' then
    st.fixed data 8 fun bs => (unpackguid bs).map fun w => .double (DoubleCodec.unpack754 w)
  else if c = 's' then do
    let (len, count) ← st.readLen data
    let st := st.advance 4
    let copied ← copyString data st.buf count
    some { st.advance len with
      outs := st.outs ++ [some (.str copied)], s := some st.outs.length }
  else if c = 'b' then do
    let (len, count) ← st.readLen data
    let st := st.advance 4
    let copied ← Mem.load data st.buf count
    -- the copy goes to `s`, which is not initialized before the first string
    let s ← st.s
    some { st.advance len with
      outs := st.outs.modify s (Option.map (copyOver copied)) ++ [none] }
  else if c.isDigit then some { st with maxlen := nextDigit st.maxlen c }
  else some st

/-- The `for` loop of `SOS_buffer_unpack`. -/
def unpackLoop (data : List Byte) : List Char → UnpackState → Option UnpackState
  | [], st => some st
  | c :: format, st => do
      let st ← unpackChar data st c
      unpackLoop data format { st with maxlen := if c.isDigit then st.maxlen else 0 }

/-- The loop in front of `SOS_buffer_unpack`, which grows the buffer until
it reaches past the offset. Each turn more than doubles `max`. -/
def growPastOffset (offset : ℕ) : ℕ → SosBuffer → Option SosBuffer
  | 0, _ => none
  | fuel + 1, b =>
      if offset ≥ b.max then (sosBufferGrow b b.max).bind (growPastOffset offset fuel) else some b

/-- What a call of `SOS_buffer_unpack` leaves its caller. -/
structure UnpackResult where
  buffer : SosBuffer
  offset : ℕ
  packedBytes : ℕ
  outs : List (Option Value)

/-- **`SOS_buffer_unpack`.** -/
def sosBufferUnpack (b : SosBuffer) (offset : ℕ) (format : List Char) : Option UnpackResult := do
  let b ← growPastOffset offset 33 b
  let st ← unpackLoop b.data format ⟨offset, 0, 0, [], none⟩
  if offset + st.packedBytes ≤ intMax then
    some ⟨b, offset + st.packedBytes, st.packedBytes, st.outs⟩
  else none

end

end SosFlow
