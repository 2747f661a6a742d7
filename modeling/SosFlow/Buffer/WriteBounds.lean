import SosFlow.Buffer.Pack

/-!
# Where a packing call writes

`SOS_buffer_pack` grows its buffer at two places only, and neither of them looks
at how much the call has packed. `packWrites` lists the writes of a call with
the size the allocation has at each. Which calls write nothing outside is a
question of lengths alone (`staysInside_iff`). A string no shorter than what
lies behind the offset starts the output again in a larger buffer, and cuts the
call into stretches; each stretch has to fit the room it was given.
-/

namespace SosFlow

/-! ## What a format packs -/

/-- **What a format letter packs**, by its length: a number of bytes, or a string with
its length as an `int`. -/
inductive PackItem where
  | fixed (n : ℕ)
  | str (len : CInt)
deriving DecidableEq

/-- The `switch` of `SOS_buffer_pack` without its writes: the item, if the character
asks for one, and the arguments behind it. An argument of another type does not
match, nor a block shorter than its count. -/
def packItem (datalen : BitVec 32) (c : Char) (args : List Value) :
    Option (List PackItem × List Value) :=
  if c = 'i' then
    match args with
    | .int _ :: args => some ([.fixed 4], args)
    | _ => none
  else if c = 'l' then
    match args with
    | .long _ :: args => some ([.fixed 8], args)
    | _ => none
  else if c = 'd' then
    match args with
    | .double _ :: args => some ([.fixed 8], args)
    | _ => none
  else if c = 'g' then
    match args with
    | .guid _ :: args => some ([.fixed 8], args)
    | _ => none
  else if c = 's' then
    match args with
    | .str s :: args => some ([.str (BitVec.ofNat 32 (strlen s))], args)
    | _ => none
  else if c = 'b' then
    match args with
    | .bytes b :: args =>
        if datalen.toInt.toNat ≤ b.length then
          some ([.fixed (4 + max datalen.toInt.toNat 1)], args)
        else none
    | _ => none
  else some ([], args)

/-- **The items of a call**, if its arguments match its format. -/
def packItems : BitVec 32 → List Char → List Value → Option (List PackItem)
  | _, [], _ => some []
  | datalen, c :: format, args => do
      let (first, args) ← packItem datalen c args
      let rest ← packItems (if c.isDigit then nextDigit datalen c else 0) format args
      some (first ++ rest)

/-! ## The writes -/

/-- **A write**: its first index, its number of bytes, and `buffer->max` at the
time. -/
structure BufferWrite where
  index : ℕ
  count : ℕ
  max : ℕ
deriving DecidableEq

/-- **Every byte of the write lies in the allocation.** -/
def BufferWrite.Inside (w : BufferWrite) : Prop := ∀ i < w.count, w.index + i < w.max

instance (w : BufferWrite) : Decidable w.Inside := by
  unfold BufferWrite.Inside
  infer_instance

/-- A length as the `size_t` that `memcpy` takes. -/
def sizeT (len : CInt) : ℕ := (len.signExtend 64).toNat

/-- Where a packing call stands: the size of its buffer and its pointer. -/
structure PackPos where
  max : ℕ
  buf : ℕ

/-- The `memset` of `SOS_buffer_grow`. No `realloc` gives it memory for a size that is
no `int`. -/
def growWrite (max growAmount : ℕ) : BufferWrite where
  index := max
  count := growAmount + 1
  max := if max + (growAmount + 1) ≤ intMax then max + (growAmount + 1) else 0

namespace PackItem

/-- The bytes an item takes. -/
def size : PackItem → ℕ
  | fixed n => n
  | str len => 4 + sizeT len

/-- What an item has the buffer grow by. -/
def growAmount : PackItem → ℕ
  | fixed _ => 0
  | str len => (len.toInt + sosDefaultBufferMax).toNat

/-- The item makes the buffer grow: the test in front of a string. -/
def Grows (offset max : ℕ) : PackItem → Prop
  | fixed _ => False
  | str len => (offset : ℤ) + len.toInt ≥ max

instance (offset max : ℕ) : DecidablePred (Grows offset max) := fun i => by
  cases i <;> simp only [Grows] <;> infer_instance

/-- The position an item is written at. Growing takes the pointer back to the
offset. -/
def start (offset : ℕ) (p : PackPos) (item : PackItem) : PackPos :=
  if item.Grows offset p.max then ⟨p.max + (item.growAmount + 1), offset⟩ else p

/-- The writes of an item. -/
def writes (offset : ℕ) (p : PackPos) (item : PackItem) : List BufferWrite :=
  (if item.Grows offset p.max then [growWrite p.max item.growAmount] else []) ++
    [⟨(item.start offset p).buf, item.size, (item.start offset p).max⟩]

/-- The position behind an item. -/
def next (offset : ℕ) (p : PackPos) (item : PackItem) : PackPos :=
  ⟨(item.start offset p).max, (item.start offset p).buf + item.size⟩

end PackItem

/-- **The writes of the items**, one after the other. -/
def itemWrites (offset : ℕ) : PackPos → List PackItem → List BufferWrite
  | _, [] => []
  | p, item :: items => item.writes offset p ++ itemWrites offset (item.next offset p) items

/-- **The writes of a call** of `SOS_buffer_pack`. -/
def packWrites (max offset : ℕ) (items : List PackItem) : List BufferWrite :=
  if offset > max / 2 then
    growWrite max offset :: itemWrites offset ⟨max + (offset + 1), offset⟩ items
  else itemWrites offset ⟨max, offset⟩ items

/-- **A call stays inside** its allocation: each byte it writes has an index smaller
than `buffer->max` at the time of the write. -/
def StaysInside (b : SosBuffer) (offset : ℕ) (format : List Char) (args : List Value) : Prop :=
  ∀ items ∈ packItems 0 format args, ∀ w ∈ packWrites b.max offset items, w.Inside

instance (b : SosBuffer) (offset : ℕ) (format : List Char) (args : List Value) :
    Decidable (StaysInside b offset format args) := by
  unfold StaysInside
  infer_instance

/-! ## Which calls -/

/-- **A string with room**: its length is one an `int` can hold, and less than what lies
behind the offset. -/
def PackItem.Short (room : ℕ) : PackItem → Prop
  | fixed _ => True
  | str len => 0 ≤ len.toInt ∧ len.toInt < room

/-- The bytes of some items. -/
def itemsSize (items : List PackItem) : ℕ := (items.map PackItem.size).sum

@[simp] theorem itemsSize_nil : itemsSize [] = 0 := rfl

@[simp] theorem itemsSize_cons (i : PackItem) (items : List PackItem) :
    itemsSize (i :: items) = i.size + itemsSize items := rfl

@[simp] theorem itemsSize_append (items rest : List PackItem) :
    itemsSize (items ++ rest) = itemsSize items + itemsSize rest := by
  simp [itemsSize]

/-- **The stretches of a call fit.** A stretch goes as far as its strings have room, and
is no longer than the room. The first string without it starts the next one, in
a buffer larger by the string's length, and still one that an `int` can count. -/
inductive StretchesFit (offset : ℕ) : ℕ → List PackItem → Prop
  | last {room : ℕ} {items : List PackItem} (short : ∀ i ∈ items, i.Short room)
      (fits : itemsSize items ≤ room) : StretchesFit offset room items
  | grown {room n : ℕ} {len : CInt} {items rest : List PackItem} (short : ∀ i ∈ items, i.Short room)
      (fits : itemsSize items ≤ room) (length : len.toInt = n) (long : room ≤ n)
      (countable : offset + (room + (n + sosDefaultBufferMax + 1)) ≤ intMax)
      (next : StretchesFit offset (room + (n + sosDefaultBufferMax + 1)) (.str len :: rest)) :
      StretchesFit offset room (items ++ .str len :: rest)

/-- The capacity a call starts with. -/
def startCapacity (max offset : ℕ) : ℕ := if offset > max / 2 then max + (offset + 1) else max

/-- **The call fits in stretches**, from the capacity it starts with. -/
def FitsInStretches (max offset : ℕ) (items : List PackItem) : Prop :=
  startCapacity max offset ≤ intMax ∧
    StretchesFit offset (startCapacity max offset - offset) items

/-! ## One item -/

/-- A write from inside is inside if and only if it ends inside. -/
theorem BufferWrite.inside_iff {index count max : ℕ} (h : index ≤ max) :
    (BufferWrite.mk index count max).Inside ↔ index + count ≤ max := by
  constructor
  · intro hall
    by_contra hlt
    have hlast := hall (max - index) (by change max - index < count; omega)
    change index + (max - index) < max at hlast
    omega
  · intro hle i hi
    change i < count at hi
    change index + i < max
    omega

theorem inside_growWrite {max growAmount : ℕ} :
    (growWrite max growAmount).Inside ↔ max + (growAmount + 1) ≤ intMax := by
  unfold growWrite
  split
  case isTrue hle => simp only [BufferWrite.inside_iff (Nat.le_add_right _ _), hle, le_rfl]
  case isFalse hgt =>
    refine ⟨fun h => ?_, fun h => absurd h hgt⟩
    exact absurd (h 0 (Nat.succ_pos _)) (Nat.not_lt_zero _)

theorem toInt_signExtend (len : CInt) : (len.signExtend 64).toInt = len.toInt :=
  BitVec.toInt_signExtend_of_le (by decide)

/-- A length that is not negative is itself as a `size_t`. -/
theorem sizeT_of_toInt {len : CInt} {n : ℕ} (h : len.toInt = n) : sizeT len = n := by
  have hsame := toInt_signExtend len
  have hcond := BitVec.toInt_eq_toNat_cond (len.signExtend 64)
  have hlt : len.toInt < 2 ^ 31 := BitVec.toInt_lt
  have hbound := (len.signExtend 64).isLt
  unfold sizeT
  split at hcond <;> omega

/-- A negative length is more than any allocation has. -/
theorem intMax_lt_sizeT {len : CInt} (h : len.toInt < 0) : intMax < sizeT len := by
  have hsame := toInt_signExtend len
  have hcond := BitVec.toInt_eq_toNat_cond (len.signExtend 64)
  have hge : -2 ^ 31 ≤ len.toInt := BitVec.le_toInt len
  unfold sizeT intMax
  split at hcond <;> omega

variable {offset room n : ℕ} {p : PackPos} {item : PackItem} {items : List PackItem}

/-- **All writes of the items lie inside.** -/
def AllInside (offset : ℕ) (p : PackPos) (items : List PackItem) : Prop :=
  ∀ w ∈ itemWrites offset p items, w.Inside

@[simp] theorem allInside_nil : AllInside offset p [] := by
  intro w hw
  exact absurd hw List.not_mem_nil

theorem allInside_cons : AllInside offset p (item :: items) ↔
    (∀ w ∈ item.writes offset p, w.Inside) ∧ AllInside offset (item.next offset p) items := by
  unfold AllInside
  rw [itemWrites, List.forall_mem_append]

/-- The room behind the offset decides whether an item grows the buffer. -/
theorem PackItem.Short.not_grows {max : ℕ} (hoff : offset ≤ max) (h : item.Short (max - offset)) :
    ¬ item.Grows offset max := by
  cases item with
  | fixed n => exact id
  | str len =>
      obtain ⟨-, hlt⟩ := h
      change ¬ ((offset : ℤ) + len.toInt ≥ max)
      omega

/-- **An item that grows nothing** is written where the pointer stands. -/
theorem allInside_in_place (hbuf : p.buf ≤ p.max) (h : ¬ item.Grows offset p.max) :
    AllInside offset p (item :: items) ↔
      p.buf + item.size ≤ p.max ∧ AllInside offset ⟨p.max, p.buf + item.size⟩ items := by
  rw [allInside_cons, PackItem.writes, PackItem.next, PackItem.start, if_neg h, if_neg h,
    List.nil_append, List.forall_mem_singleton, BufferWrite.inside_iff hbuf]

theorem allInside_short (hoff : offset ≤ p.max) (hbuf : p.buf ≤ p.max)
    (h : item.Short (p.max - offset)) :
    AllInside offset p (item :: items) ↔
      p.buf + item.size ≤ p.max ∧ AllInside offset ⟨p.max, p.buf + item.size⟩ items :=
  allInside_in_place hbuf (h.not_grows hoff)

/-- **An item that grows the buffer** is written at the offset. -/
theorem allInside_grown (h : item.Grows offset p.max)
    (hoff : offset ≤ p.max + (item.growAmount + 1)) :
    AllInside offset p (item :: items) ↔ p.max + (item.growAmount + 1) ≤ intMax ∧
      offset + item.size ≤ p.max + (item.growAmount + 1) ∧
      AllInside offset ⟨p.max + (item.growAmount + 1), offset + item.size⟩ items := by
  rw [allInside_cons, PackItem.writes, PackItem.next, PackItem.start, if_pos h, if_pos h,
    List.singleton_append, List.forall_mem_cons, List.forall_mem_singleton, inside_growWrite,
    BufferWrite.inside_iff hoff, and_assoc]

/-- **A string with a negative length** is not written inside. -/
theorem not_allInside_negative {len : CInt} (h : len.toInt < 0) (hoff : offset ≤ p.max)
    (hbuf : p.buf ≤ p.max) (hmax : p.max ≤ intMax) : ¬ AllInside offset p (.str len :: items) := by
  have hgrows : ¬ (PackItem.str len).Grows offset p.max := by
    change ¬ ((offset : ℤ) + len.toInt ≥ p.max)
    omega
  intro hinside
  have hwrite := ((allInside_in_place hbuf hgrows).mp hinside).1
  rw [PackItem.size] at hwrite
  have hhuge := intMax_lt_sizeT h
  omega

/-- A string without room has a negative length or grows the buffer. -/
theorem PackItem.not_short (h : ¬ item.Short room) :
    ∃ len : CInt, item = .str len ∧ (len.toInt < 0 ∨ ∃ n : ℕ, len.toInt = n ∧ room ≤ n) := by
  cases item with
  | fixed n => exact absurd trivial h
  | str len =>
      refine ⟨len, rfl, or_iff_not_imp_left.mpr fun hneg => ⟨len.toInt.toNat, by omega, ?_⟩⟩
      change ¬ (0 ≤ len.toInt ∧ len.toInt < room) at h
      omega

/-! ## Stretches -/

/-- **A stretch in front of the rest** of a call. -/
theorem allInside_stretch {first : List PackItem} (hshort : ∀ i ∈ first, i.Short (p.max - offset))
    (hoff : offset ≤ p.max) (hbuf : p.buf ≤ p.max) :
    AllInside offset p (first ++ items) ↔
      p.buf + itemsSize first ≤ p.max ∧ AllInside offset ⟨p.max, p.buf + itemsSize first⟩ items := by
  induction first generalizing p with
  | nil => simp [hbuf]
  | cons i first ih =>
      rw [List.forall_mem_cons] at hshort
      rw [List.cons_append, allInside_short hoff hbuf hshort.1, itemsSize_cons, ← Nat.add_assoc]
      have hrest := @ih ⟨p.max, p.buf + i.size⟩ hshort.2 hoff
      constructor
      · rintro ⟨hi, hall⟩
        exact (hrest hi).mp hall
      · rintro ⟨hfits, hall⟩
        have hi : p.buf + i.size ≤ p.max := by omega
        exact ⟨hi, (hrest hi).mpr ⟨hfits, hall⟩⟩

/-- The string that starts a stretch has room in it. -/
theorem allInside_long {len : CInt} (hlen : len.toInt = n) (hlong : room ≤ n) (buf : ℕ) :
    AllInside offset ⟨offset + room, buf⟩ (.str len :: items) ↔
      offset + (room + (n + sosDefaultBufferMax + 1)) ≤ intMax ∧
        AllInside offset ⟨offset + (room + (n + sosDefaultBufferMax + 1)), offset⟩
          (.str len :: items) := by
  have hgrows : (PackItem.str len).Grows offset (offset + room) := by
    change (offset : ℤ) + len.toInt ≥ ((offset + room : ℕ) : ℤ)
    omega
  have hamount : (PackItem.str len).growAmount = n + sosDefaultBufferMax := by
    rw [PackItem.growAmount, hlen]
    omega
  have hcap : offset + room + ((PackItem.str len).growAmount + 1) =
      offset + (room + (n + sosDefaultBufferMax + 1)) := by
    rw [hamount]
    omega
  have hshort : (PackItem.str len).Short
      (offset + (room + (n + sosDefaultBufferMax + 1)) - offset) := by
    refine ⟨by omega, ?_⟩
    rw [hlen]
    omega
  rw [allInside_grown hgrows (by simp only [hcap]; omega)]
  simp only [hcap]
  rw [allInside_short (p := ⟨_, offset⟩) (Nat.le_add_right _ _) (Nat.le_add_right _ _) hshort]

/-- **Stretches that fit** are written inside. -/
theorem StretchesFit.allInside (h : StretchesFit offset room items) :
    AllInside offset ⟨offset + room, offset⟩ items := by
  induction h with
  | @last room items short fits =>
      rw [← List.append_nil items]
      exact (allInside_stretch (by simpa using short) (Nat.le_add_right _ _)
        (Nat.le_add_right _ _)).mpr ⟨Nat.add_le_add_left fits _, allInside_nil⟩
  | grown short fits length long countable next ih =>
      refine (allInside_stretch (by simpa using short) (Nat.le_add_right _ _)
        (Nat.le_add_right _ _)).mpr ⟨Nat.add_le_add_left fits _, ?_⟩
      exact (allInside_long length long _).mpr ⟨countable, ih⟩

/-- **What is written inside** fits in stretches, behind what has been written of the
first. -/
theorem stretchesFit_of_allInside (done : List PackItem) (hshort : ∀ i ∈ done, i.Short room)
    (hfits : itemsSize done ≤ room) (hmax : offset + room ≤ intMax)
    (h : AllInside offset ⟨offset + room, offset + itemsSize done⟩ items) :
    StretchesFit offset room (done ++ items) := by
  induction items generalizing room done with
  | nil => exact .last (by simpa using hshort) (by simpa using hfits)
  | cons i items ih =>
      by_cases hi : i.Short room
      · have hi' : i.Short (offset + room - offset) := by rwa [Nat.add_sub_cancel_left]
        obtain ⟨hroom, hrest⟩ := (allInside_short (Nat.le_add_right _ _)
          (Nat.add_le_add_left hfits _) hi').mp h
        have htotal : itemsSize (done ++ [i]) = itemsSize done + i.size := by simp
        simp only at hroom
        have hall : ∀ j ∈ done ++ [i], j.Short room := by
          rw [List.forall_mem_append, List.forall_mem_singleton]
          exact ⟨hshort, hi⟩
        have hext := ih _ hall (by omega) hmax (by rwa [htotal, ← Nat.add_assoc])
        rwa [List.append_assoc, List.singleton_append] at hext
      · obtain ⟨len, rfl, hneg | ⟨n, hlen, hlong⟩⟩ := PackItem.not_short hi
        · exact absurd h (not_allInside_negative hneg (Nat.le_add_right _ _)
            (Nat.add_le_add_left hfits _) hmax)
        · obtain ⟨hcount, hstart⟩ := (allInside_long hlen hlong _).mp h
          refine .grown hshort hfits hlen hlong hcount ?_
          have hroomy : (PackItem.str len).Short (room + (n + sosDefaultBufferMax + 1)) :=
            ⟨by omega, by omega⟩
          have hroomy' : (PackItem.str len).Short
              (offset + (room + (n + sosDefaultBufferMax + 1)) - offset) := by
            rwa [Nat.add_sub_cancel_left]
          obtain ⟨hroom, hrest⟩ := (allInside_short (p := ⟨_, offset⟩) (Nat.le_add_right _ _)
            (Nat.le_add_right _ _) hroomy').mp hstart
          simp only at hroom
          have hone : itemsSize [PackItem.str len] = (PackItem.str len).size := by simp
          exact ih [.str len] (by simpa using hroomy) (by omega) hcount (by rwa [hone])

/-- **The writes of a call lie inside, exactly** when it fits in stretches. -/
theorem inside_packWrites_iff {max : ℕ} (hoff : offset ≤ max) (hmax : max ≤ intMax) :
    (∀ w ∈ packWrites max offset items, w.Inside) ↔ FitsInStretches max offset items := by
  have hloop : ∀ cap, offset ≤ cap → cap ≤ intMax →
      (AllInside offset ⟨cap, offset⟩ items ↔ StretchesFit offset (cap - offset) items) := by
    intro cap hle hcap
    have hsum : offset + (cap - offset) = cap := by omega
    constructor
    · intro h
      exact stretchesFit_of_allInside [] (by simp) (Nat.zero_le _) (by omega)
        (by simpa [hsum] using h)
    · intro h
      simpa [hsum] using h.allInside
  unfold packWrites FitsInStretches startCapacity
  split
  case isTrue =>
    rw [List.forall_mem_cons, inside_growWrite]
    exact and_congr_right fun hcap => hloop _ (by omega) hcap
  case isFalse => exact (hloop max hoff hmax).trans (by simp [hmax])

/-- **A packing call stays inside its allocation, exactly** when it fits in
stretches. -/
theorem staysInside_iff {b : SosBuffer} {format : List Char} {args : List Value}
    (hoff : offset ≤ b.max) (hmatch : packItems 0 format args = some items) :
    StaysInside b offset format args ↔ FitsInStretches b.max offset items := by
  rw [← inside_packWrites_iff hoff b.max_le_intMax]
  unfold StaysInside
  rw [hmatch]
  simp

/-! ## The writes are those of the packing loop -/

/-- The position behind some items. -/
def itemsNext (offset : ℕ) : PackPos → List PackItem → PackPos
  | p, [] => p
  | p, item :: items => itemsNext offset (item.next offset p) items

theorem allInside_append {first : List PackItem} :
    AllInside offset p (first ++ items) ↔
      AllInside offset p first ∧ AllInside offset (itemsNext offset p first) items := by
  induction first generalizing p with
  | nil => simp [itemsNext]
  | cons i first ih => rw [List.cons_append, allInside_cons, allInside_cons, ih, and_assoc]; rfl

/-- The position of the packing loop. -/
def PackState.pos (st : PackState) : PackPos := ⟨st.buffer.max, st.buf⟩

/-- **A step of the loop performs the items**: it goes on behind them if their writes lie
inside, and only then. -/
def Performs (offset : ℕ) (st : PackState) (items : List PackItem) : Option PackState → Prop
  | none => ¬ AllInside offset st.pos items
  | some st' => AllInside offset st.pos items ∧ st'.pos = itemsNext offset st.pos items

variable {st : PackState}

/-- A write where the item stands performs it. -/
theorem put_performs (hbuf : st.buf ≤ st.buffer.max) (hgrows : ¬ item.Grows offset st.buffer.max)
    {xs : List Byte} (hlen : xs.length = item.size) : Performs offset st [item] (st.put xs) := by
  have hstart : item.start offset st.pos = st.pos := if_neg hgrows
  have hplace : AllInside offset st.pos [item] ↔ st.buf + item.size ≤ st.buffer.max :=
    (allInside_in_place hbuf hgrows).trans (and_iff_left allInside_nil)
  rw [← hlen] at hplace
  cases hput : st.put xs with
  | none =>
      intro hin
      obtain ⟨st', hst'⟩ := PackState.put_eq (hplace.mp hin)
      rw [hput] at hst'
      cases hst'
  | some st' =>
      refine ⟨hplace.mpr (PackState.put_bound hput), ?_⟩
      rw [PackState.pos, PackState.put_max hput, (PackState.put_some hput).2.2.1, hlen]
      simp only [itemsNext, PackItem.next, hstart]
      rfl

/-- The bytes of a string, as the `switch` writes them: its length, and as many of its
bytes, if that is not negative. -/
def putString (st : PackState) (s : List Byte) (len : ℤ) : Option PackState :=
  (st.put (packi32 (BitVec.ofInt 32 len))).bind fun st =>
    if len < 0 then none else st.put (s.take len.toNat)

theorem putString_performs (hoff : offset ≤ st.buffer.max) (hbuf : st.buf ≤ st.buffer.max)
    (s : List Byte)
    (hgrows : ¬ (PackItem.str (BitVec.ofNat 32 (strlen s))).Grows offset st.buffer.max) :
    Performs offset st [.str (BitVec.ofNat 32 (strlen s))] (putString st s (toInt (strlen s))) := by
  by_cases hneg : toInt (strlen s) < 0
  · -- what is copied of such a string is more than any buffer has
    have hnone : putString st s (toInt (strlen s)) = none := by
      simp only [putString, if_pos hneg, Option.bind_fun_none]
    rw [hnone]
    exact not_allInside_negative hneg hoff hbuf st.buffer.max_le_intMax
  · obtain ⟨n, hn⟩ : ∃ n : ℕ, toInt (strlen s) = n := ⟨(toInt (strlen s)).toNat, by omega⟩
    have hle : n ≤ s.length := by
      have hstr : strlen s ≤ s.length := (List.takeWhile_sublist _).length_le
      have hint := (toInt_toNat_le (strlen s)).1
      rw [hn, Int.toNat_natCast] at hint
      omega
    have hbytes : putString st s (toInt (strlen s)) =
        st.put (packi32 (BitVec.ofInt 32 (toInt (strlen s))) ++ s.take n) := by
      simp only [putString, if_neg hneg, PackState.put_append]
      rw [hn, Int.toNat_natCast]
    rw [hbytes]
    refine put_performs hbuf hgrows ?_
    rw [List.length_append, length_packi32, List.length_take, min_eq_left hle, PackItem.size,
      sizeT_of_toInt hn]

/-- An item that grows the buffer is performed as it is from the grown one. -/
theorem Performs.of_grown {st₁ : PackState} {o : Option PackState}
    (hgrows : item.Grows offset st.buffer.max) (hgrown : ¬ item.Grows offset st₁.buffer.max)
    (hmax : st₁.buffer.max = st.buffer.max + (item.growAmount + 1)) (hbuf : st₁.buf = offset)
    (hoff : offset ≤ st₁.buffer.max) (h : Performs offset st₁ [item] o) :
    Performs offset st [item] o := by
  have hpos : st₁.pos = ⟨st.buffer.max + (item.growAmount + 1), offset⟩ := by
    rw [PackState.pos, hmax, hbuf]
  have hstart : item.start offset st.pos = st₁.pos := (if_pos hgrows).trans hpos.symm
  have hstart₁ : item.start offset st₁.pos = st₁.pos := if_neg hgrown
  have hall : AllInside offset st.pos [item] ↔ AllInside offset st₁.pos [item] := by
    have hcap : st.buffer.max + (item.growAmount + 1) ≤ intMax := hmax ▸ st₁.buffer.max_le_intMax
    have hfrom : AllInside offset st.pos [item] ↔ _ := allInside_grown hgrows (hmax ▸ hoff)
    have hto : AllInside offset st₁.pos [item] ↔ _ :=
      allInside_in_place (hbuf.trans_le hoff) hgrown
    rw [hfrom, hto, hpos]
    exact and_iff_right hcap
  cases o with
  | none => exact fun hin => h (hall.mp hin)
  | some st' =>
      refine ⟨hall.mpr h.1, h.2.trans ?_⟩
      simp only [itemsNext, PackItem.next, hstart, hstart₁]

/-- **A string is performed**: the growth in front of it, and its bytes. -/
theorem growForString_performs (hoff : offset ≤ st.buffer.max) (hbuf : st.buf ≤ st.buffer.max)
    (s : List Byte) :
    Performs offset st [.str (BitVec.ofNat 32 (strlen s))]
      ((st.growForString offset (toInt (strlen s))).bind fun st =>
        putString st s (toInt (strlen s))) := by
  by_cases hgrows : (PackItem.str (BitVec.ofNat 32 (strlen s))).Grows offset st.buffer.max
  · have hgrow : st.growForString offset (toInt (strlen s)) =
        (sosBufferGrow st.buffer (PackItem.str (BitVec.ofNat 32 (strlen s))).growAmount).map
          fun buffer => { st with buffer, buf := offset } := if_pos hgrows
    have hroom : offset ≤ st.buffer.max +
        ((PackItem.str (BitVec.ofNat 32 (strlen s))).growAmount + 1) := by omega
    cases hb : sosBufferGrow st.buffer (PackItem.str (BitVec.ofNat 32 (strlen s))).growAmount with
    | none =>
        rw [hgrow, hb, Option.map_none, Option.bind_none]
        intro hin
        have hcap := ((allInside_grown hgrows hroom).mp hin).1
        obtain ⟨b', hb'⟩ := sosBufferGrow_eq hcap
        rw [hb] at hb'
        cases hb'
    | some b =>
        rw [hgrow, hb, Option.map_some, Option.bind_some]
        have hmax := (sosBufferGrow_some hb).2.2
        have hgrown : ¬ (PackItem.str (BitVec.ofNat 32 (strlen s))).Grows offset b.max := by
          rw [hmax]
          simp only [PackItem.Grows, PackItem.growAmount]
          omega
        rw [← hmax] at hroom
        exact (putString_performs hroom hroom s hgrown).of_grown hgrows hgrown hmax rfl hroom
  · have hgrow : st.growForString offset (toInt (strlen s)) = some st := if_neg hgrows
    rw [hgrow, Option.bind_some]
    exact putString_performs hoff hbuf s hgrows

section

variable [DoubleCodec]

/-- What the `switch` writes for a block. -/
def blockOut (datalen : BitVec 32) (block : List Byte) : List Byte :=
  if datalen.toInt < 1 then packi32 (BitVec.ofNat 32 1) ++ [0]
  else packi32 (BitVec.ofNat 32 datalen.toInt.toNat) ++ block.take datalen.toInt.toNat

omit [DoubleCodec] in
theorem length_blockOut {datalen : BitVec 32} {block : List Byte}
    (hlen : datalen.toInt.toNat ≤ block.length) :
    (blockOut datalen block).length = 4 + max datalen.toInt.toNat 1 := by
  unfold blockOut
  split
  case isTrue h =>
    rw [List.length_append, length_packi32, List.length_singleton]
    omega
  case isFalse h =>
    rw [List.length_append, length_packi32, List.length_take, min_eq_left hlen]
    omega

theorem packChar_block (st : PackState) {block : List Byte} (rest : List Value)
    (hlen : st.datalen.toInt.toNat ≤ block.length) :
    packChar offset st 'b' (.bytes block :: rest) =
      (st.put (blockOut st.datalen block)).map (·, rest) := by
  simp only [packChar, Char.reduceEq, if_false, if_true, Option.bind_eq_bind, blockOut]
  split
  case isTrue h =>
    rw [PackState.put_append, Option.map_bind]
    rfl
  case isFalse h =>
    rw [PackState.put_append, Option.map_bind]
    rfl

/-- **One character of the loop performs its item**, and leaves the arguments behind
it. -/
theorem packChar_performs {c : Char} {args args' : List Value} (hoff : offset ≤ st.buffer.max)
    (hbuf : st.buf ≤ st.buffer.max) (h : packItem st.datalen c args = some (items, args')) :
    ∃ o, packChar offset st c args = o.map (·, args') ∧ Performs offset st items o ∧
      ∀ st' ∈ o, c.isDigit → st'.datalen = nextDigit st.datalen c := by
  unfold packItem at h
  split_ifs at h with hi hl hd hg hs hb
  · subst hi
    split at h
    case h_1 i rest =>
      obtain ⟨rfl, rfl⟩ := Prod.mk.inj (Option.some.inj h)
      exact ⟨st.put (packi32 i), rfl, put_performs hbuf id rfl, by simp⟩
    case h_2 => cases h
  · subst hl
    split at h
    case h_1 l rest =>
      obtain ⟨rfl, rfl⟩ := Prod.mk.inj (Option.some.inj h)
      exact ⟨st.put (packi64 l), rfl, put_performs hbuf id rfl, by simp⟩
    case h_2 => cases h
  · subst hd
    split at h
    case h_1 d rest =>
      obtain ⟨rfl, rfl⟩ := Prod.mk.inj (Option.some.inj h)
      exact ⟨st.put (packi64 (DoubleCodec.pack754 d)), rfl, put_performs hbuf id rfl, by simp⟩
    case h_2 => cases h
  · subst hg
    split at h
    case h_1 g rest =>
      obtain ⟨rfl, rfl⟩ := Prod.mk.inj (Option.some.inj h)
      exact ⟨st.put (packguid g), rfl, put_performs hbuf id rfl, by simp⟩
    case h_2 => cases h
  · subst hs
    split at h
    case h_1 s rest =>
      obtain ⟨rfl, rfl⟩ := Prod.mk.inj (Option.some.inj h)
      refine ⟨_, ?_, growForString_performs hoff hbuf s, by simp⟩
      simp only [packChar, Char.reduceEq, if_false, if_true, Option.bind_eq_bind, putString,
        Option.map_bind, Function.comp_def]
      congr 1
      funext st₁
      congr 1
      funext st₂
      split <;> rfl
    case h_2 => cases h
  · subst hb
    split at h
    case h_1 block rest =>
      split at h
      case isTrue hlen =>
        obtain ⟨rfl, rfl⟩ := Prod.mk.inj (Option.some.inj h)
        exact ⟨_, packChar_block st rest hlen, put_performs hbuf id (length_blockOut hlen), by simp⟩
      case isFalse => cases h
    case h_2 => cases h
  · obtain ⟨rfl, rfl⟩ := Prod.mk.inj (Option.some.inj h)
    refine ⟨some { st with datalen := if c.isDigit then nextDigit st.datalen c else st.datalen },
      ?_, ⟨allInside_nil, rfl⟩, ?_⟩
    · simp only [packChar, if_neg hi, if_neg hl, if_neg hd, if_neg hg, if_neg hs, if_neg hb]
      split <;> rfl
    · rintro _ ⟨⟩ hdigit
      exact if_pos hdigit

omit [DoubleCodec] in
/-- Behind items written inside the pointer and the offset lie inside. -/
theorem itemsNext_le (hoff : offset ≤ p.max) (hbuf : p.buf ≤ p.max) (h : AllInside offset p items) :
    offset ≤ (itemsNext offset p items).max ∧
      (itemsNext offset p items).buf ≤ (itemsNext offset p items).max := by
  induction items generalizing p with
  | nil => exact ⟨hoff, hbuf⟩
  | cons i items ih =>
      have hrest := (allInside_cons.mp h).2
      by_cases hgrows : i.Grows offset p.max
      · have hroom : offset ≤ p.max + (i.growAmount + 1) := by omega
        have hin := ((allInside_grown hgrows hroom).mp h).2.1
        have hnext : i.next offset p =
            ⟨p.max + (i.growAmount + 1), offset + i.size⟩ := by
          rw [PackItem.next, PackItem.start, if_pos hgrows]
        exact ih (by rw [hnext]; exact hroom) (by rw [hnext]; exact hin) hrest
      · have hin := ((allInside_in_place hbuf hgrows).mp h).1
        have hnext : i.next offset p = ⟨p.max, p.buf + i.size⟩ := by
          rw [PackItem.next, PackItem.start, if_neg hgrows]
        exact ih (by rw [hnext]; exact hoff) (by rw [hnext]; exact hin) hrest

/-- **The packing loop performs the items of its format**: it returns if and only if
every write of them lies inside. -/
theorem packLoop_returns_iff (st : PackState) {format : List Char} {args : List Value}
    (hoff : offset ≤ st.buffer.max) (hbuf : st.buf ≤ st.buffer.max)
    (hmatch : packItems st.datalen format args = some items) :
    (∃ st', packLoop offset format args st = some st') ↔ AllInside offset st.pos items := by
  induction format generalizing st args items with
  | nil =>
      obtain rfl := Option.some.inj hmatch
      simp [packLoop]
  | cons c format ih =>
      obtain ⟨⟨first, args'⟩, hfirst, hrest⟩ := Option.bind_eq_some_iff.mp hmatch
      obtain ⟨rest, hitems, hsplit⟩ := Option.bind_eq_some_iff.mp hrest
      obtain rfl := Option.some.inj hsplit
      obtain ⟨o, hchar, hperf, hdigit⟩ := packChar_performs hoff hbuf hfirst
      rw [packLoop, hchar, allInside_append]
      cases o with
      | none => exact ⟨fun h => absurd h (by simp), fun h => absurd h.1 hperf⟩
      | some st₁ =>
          obtain ⟨hin, hpos⟩ := hperf
          obtain ⟨hoff₁, hbuf₁⟩ := itemsNext_le hoff hbuf hin
          rw [← hpos] at hoff₁ hbuf₁
          rw [and_iff_right hin, ← hpos]
          have hcount : (if c.isDigit then st₁.datalen else 0) =
              if c.isDigit then nextDigit st.datalen c else 0 := by
            split
            case isTrue hd => exact hdigit st₁ rfl hd
            case isFalse => rfl
          exact @ih rest { st₁ with datalen := if c.isDigit then st₁.datalen else 0 } args' hoff₁
            hbuf₁ (by rw [← hitems]; exact congrArg (packItems · format args') hcount)

/-- **A call stays inside, exactly** when neither its growths nor its loop fail. -/
theorem staysInside_iff_returns {b : SosBuffer} {format : List Char} {args : List Value}
    (hoff : offset ≤ b.max) (hmatch : packItems 0 format args = some items) :
    StaysInside b offset format args ↔ ∃ st, ((growForOffset b offset offset).bind fun b =>
      packLoop offset format args ⟨b, offset, 0, 0⟩) = some st := by
  have hloop : ∀ b₁ : SosBuffer, offset ≤ b₁.max →
      ((∃ st', packLoop offset format args ⟨b₁, offset, 0, 0⟩ = some st') ↔
        AllInside offset ⟨b₁.max, offset⟩ items) :=
    fun b₁ h => packLoop_returns_iff ⟨b₁, offset, 0, 0⟩ h h hmatch
  unfold StaysInside packWrites growForOffset
  rw [hmatch]
  simp only [Option.mem_some_iff, forall_eq']
  split
  case isTrue =>
    rw [List.forall_mem_cons, inside_growWrite]
    cases hb : sosBufferGrow b offset with
    | none =>
        constructor
        · rintro ⟨hcap, -⟩
          obtain ⟨b', hb'⟩ := sosBufferGrow_eq hcap
          rw [hb] at hb'
          cases hb'
        · simp
    | some b₁ =>
        have hmax := (sosBufferGrow_some hb).2.2
        rw [Option.bind_some, hloop b₁ (by omega), hmax]
        exact and_iff_right (hmax ▸ b₁.max_le_intMax)
  case isFalse => exact (hloop b hoff).symm

end

/-- The hypotheses of `staysInside_iff`, and its condition, at a string of nine behind an
integer: the buffer of eight grows for it, and the output starts again. -/
theorem staysInside_restarted :
    StaysInside (sosBufferInitSized 8 (by decide)) 0 ['i', 's']
      [.int 7, .str [49, 50, 51, 52, 53, 54, 55, 56, 57]] := by
  have hnext : StretchesFit 0 (8 + (9 + sosDefaultBufferMax + 1)) [.str 9] :=
    .last (by simp [PackItem.Short, sosDefaultBufferMax]) (by decide)
  have hfirst : ∀ i ∈ [PackItem.fixed 4], i.Short 8 := by simp [PackItem.Short]
  exact (staysInside_iff (by decide) (by decide)).mpr
    ⟨by decide, .grown hfirst (by decide) (by decide) (by decide) (by decide) hnext⟩

/-- **A string of seven bytes in a buffer of eight**: the test in front of it leaves out
the length that is packed with it. -/
theorem not_staysInside :
    ¬ StaysInside (sosBufferInitSized 8 (by decide)) 0 ['s']
      [.str [49, 50, 51, 52, 53, 54, 55]] := by
  decide

end SosFlow
