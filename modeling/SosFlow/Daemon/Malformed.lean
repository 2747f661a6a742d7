import SosFlow.Buffer.Received
import SosFlow.Daemon.AnnounceBuffer
import SosFlow.Daemon.SnapBuffer

/-!
# Messages of any bytes

The lengths, counts, types and indices in a message come from outside, and the
decoders of the daemon use them as they are. Here each decoder is modelled by the
accesses it makes, on a message of any bytes: it returns nothing at the first
read behind the bytes that were received, the first string that is longer than
the memory it is copied to or is read there without a terminator, the first
element the pub does not have or whose old value cannot be freed, and a list for
which the cache has no slot. `decoders_in_bounds_iff` finds the messages on which
the decoders come to their end: they are the well-formed ones, put together of
the fields that the formats ask for, each string within the memory for it. Memory
that is asked for is there, unless its size is negative.
-/

namespace SosFlow

open Mem (Holds Exact andThen check times upTo)

/-- **A received message**: any bytes that have their number in front. -/
structure Received where
  bytes : List Byte
  le_int : bytes.length ≤ intMax
  size : Holds bytes 0 (packi32 (intOf bytes.length))

/-- **What the decoders look at of a pub**: how many elements are allocated, the type
each has, whether it has a definition already, and whether `val.c_val` is `NULL` or
memory of the heap, which a value of another type is not; whether snapshots go to a
cache, and how the list in each of its slots ends. A type is any integer that was
announced. -/
structure PubShape where
  elemMax : ℕ
  type : ℕ → CInt
  defined : ℕ → List WireField → Bool
  freeable : ℕ → Bool
  cacheDepth : CInt
  cacheHead : CInt
  slots : List ChainEnd
  nature : CInt

/-- The snapshots of the pub go to its cache. -/
def PubShape.Caches (pub : PubShape) : Prop := 0 < pub.cacheDepth.toInt ∧ pub.nature ≠ natureSos

instance (pub : PubShape) : Decidable pub.Caches := by
  unfold PubShape.Caches
  infer_instance

/-- The slot in front of the head. -/
def PubShape.insertPos (pub : PubShape) : ℤ :=
  if pub.cacheHead = 0 then pub.cacheDepth.toInt - 1 else pub.cacheHead.toInt - 1

/-- The slot a list goes into is in the array, and the list that is there ends. -/
def PubShape.TakesList (pub : PubShape) : Prop :=
  0 ≤ pub.insertPos ∧ pub.slots[pub.insertPos.toNat]? = some .null

instance (pub : PubShape) : Decidable pub.TakesList := by
  unfold PubShape.TakesList
  infer_instance

/-- A message of some bytes behind its size. -/
def Received.ofBody (body : List Byte) (h : 4 + body.length ≤ intMax) : Received where
  bytes := packi32 (intOf (4 + body.length)) ++ body
  le_int := by rwa [List.length_append, length_packi32]
  size := by
    rw [List.length_append, length_packi32]
    exact List.prefix_append _ _

/-- The integer in a place of the fields. -/
def intAt (fs : List WireField) (i : ℕ) : CInt :=
  match fs[i]? with
  | some (.int v) => v
  | _ => 0

/-- The format of a header. -/
def headerFormat : List Char := ['i', 'i', 'g', 'g']

/-! ## `SOS_announce_from_buffer` -/

/-- A string that is copied lies in the array. -/
def WireField.FitsIn (size : ℕ) : WireField → Prop
  | str s => s.length ≤ size
  | _ => True

instance (size : ℕ) : DecidablePred (WireField.FitsIn size) := fun f => by
  cases f <;> simp only [WireField.FitsIn] <;> infer_instance

/-- The fields fit the arrays of `SOS_DEFAULT_STRING_LEN` characters. -/
def FitArrays (fs : List WireField) : Prop := ∀ f ∈ fs, f.FitsIn sosDefaultStringLen

instance : DecidablePred FitArrays := fun fs => by
  unfold FitArrays
  infer_instance

/-- A string ends in memory of a size: it is shorter, or has a terminator of its own. -/
def WireField.EndsIn (size : ℤ) : WireField → Prop
  | str s => (s.length : ℤ) < size ∨ (0 : Byte) ∈ s
  | _ => True

instance (size : ℤ) : DecidablePred (WireField.EndsIn size)
  | .str s => inferInstanceAs (Decidable ((s.length : ℤ) < size ∨ (0 : Byte) ∈ s))
  | .int _ => .isTrue trivial
  | .long _ => .isTrue trivial
  | .guid _ => .isTrue trivial
  | .double _ => .isTrue trivial

/-- **A definition that is copied**: its name fits the array, and ends there if it is a new
definition, whose name is printed. -/
def NamedIn (pub : PubShape) (elem : ℕ) (fs : List WireField) : Prop :=
  FitArrays fs ∧ (pub.defined elem fs = false → ∀ f ∈ fs, f.EndsIn sosDefaultStringLen)

instance (pub : PubShape) (elem : ℕ) : DecidablePred (NamedIn pub elem) := fun fs => by
  unfold NamedIn
  infer_instance

/-- `while (pub->elem_max < elem) SOS_expand_data(pub)`. -/
def expandTo (elem : ℤ) : ℕ → ℕ → Option ℕ
  | 0, _ => none
  | rounds + 1, elemMax =>
    if (elemMax : ℤ) < elem then
      if elemMax + sosDefaultElemMax ≤ intMax then expandTo elem rounds (elemMax + sosDefaultElemMax)
      else none
    else some elemMax

/-- One definition, into `pub->data[elem]`. -/
def readDefinition (m : List Byte) (pub : PubShape) (elemMax elem : ℕ) :
    ℕ → Option (List WireField × ℕ) :=
  check (check (readFields m defFormat) (NamedIn pub elem)) fun _ => elem < elemMax

/-- The definitions, as many as the metadata count. -/
def readDefinitions (m : List Byte) (pub : PubShape) (metadata : List WireField) (p : ℕ) :
    Option (List (List WireField) × ℕ) :=
  (expandTo (intAt metadata 9).toInt (intMax / sosDefaultElemMax + 2) pub.elemMax).bind
    fun elemMax => times (readDefinition m pub elemMax) (intAt metadata 9).toInt.toNat 0 p

/-- **The accesses of `SOS_announce_from_buffer`.** -/
def announceReads (m : List Byte) (pub : PubShape) :
    Option ((List WireField × List WireField × List (List WireField)) × ℕ) :=
  andThen (readFields m headerFormat) (fun _ =>
    andThen (check (readFields m announceFormat) FitArrays) (readDefinitions m pub)) 0

/-! ## `SOS_publish_from_buffer` -/

/-- The format of a value of a type. -/
def valFormat (type : CInt) : List Char :=
  if type = ValType.int.code then ['i']
  else if type = ValType.long.code then ['l']
  else if type = ValType.double.code then ['d']
  else if type = ValType.string.code then ['s']
  else []

/-- The bytes that are asked for a string: one more than the length beside it, which is
negative past `INT_MAX`. -/
def stringRoom (valLen : CInt) : ℤ := (valLen + 1).toInt

/-- A string that is copied lies in the memory of an element. There is none of a
negative size, and the `memset` before the copy fails. -/
def WireField.FitsElem (valLen : CInt) : WireField → Prop
  | str s => (s.length : ℤ) ≤ stringRoom valLen
  | _ => True

instance (valLen : CInt) : DecidablePred (WireField.FitsElem valLen) := fun f => by
  cases f <;> simp only [WireField.FitsElem] <;> infer_instance

/-- The index of an element the pub has. -/
def HasElem (pub : PubShape) (elem : CInt) : Prop := 0 ≤ elem.toInt ∧ elem.toInt < pub.elemMax

instance (pub : PubShape) : DecidablePred (HasElem pub) := fun elem => by
  unfold HasElem
  infer_instance

/-- The string an element has is freed in front of another. -/
def CanFree (pub : PubShape) (elem : CInt) : Prop :=
  pub.type elem.toInt.toNat = ValType.string.code → pub.freeable elem.toInt.toNat = true

instance (pub : PubShape) : DecidablePred (CanFree pub) := fun elem => by
  unfold CanFree
  infer_instance

/-- The format in front of a value. -/
def elemFormat : List Char := ['d', 'd', 'i', 'l', 'g']

/-- The fields of one element: its index, its data and its value. -/
abbrev ElemFields := List WireField × List WireField × List WireField

/-- One turn of the loop. -/
def readElem (m : List Byte) (pub : PubShape) : ℕ → Option (ElemFields × ℕ) :=
  andThen (check (readFields m ['i']) fun index =>
      HasElem pub (intAt index 0) ∧ CanFree pub (intAt index 0)) fun index =>
    andThen (readFields m elemFormat) fun data =>
      check (readFields m (valFormat (pub.type (intAt index 0).toInt.toNat))) fun val =>
        ∀ f ∈ val, f.FitsElem (intAt data 2)

/-- **The accesses of `SOS_publish_from_buffer`.** A turn takes more than one byte, so
there are never more turns than bytes. -/
def publishReads (m : List Byte) (pub : PubShape) :
    Option ((List WireField × List WireField × List ElemFields) × ℕ) :=
  andThen (readFields m headerFormat) (fun header =>
    andThen (readFields m ['l']) fun _ =>
      upTo (readElem m pub) (intAt header 0).toInt (intAt header 0).toInt.toNat) 0

/-! ## `SOS_val_snap_queue_from_buffer` -/

/-- The format of a snapshot's value. Of a block it is the count. -/
def snapValFormat (type : CInt) : List Char :=
  if type = ValType.bytes.code then ['i'] else valFormat type

/-- What is copied of a value lies in the memory for it, and a string ends there if it is
copied once more, for the cache. Where there is no memory for a string,
`SOS_buffer_unpack` asks for its own, but the copy for the cache is of no string. A
block is copied to a pointer that was never set. -/
def WireField.FitsSnap (caches : Prop) (type valLen : CInt) : WireField → Prop
  | str s => if stringRoom valLen < 0 then ¬ caches
      else (s.length : ℤ) ≤ stringRoom valLen ∧ (caches → (str s).EndsIn (stringRoom valLen))
  | int v => type = ValType.bytes.code → v = 0
  | _ => True

instance (caches : Prop) [Decidable caches] (type valLen : CInt) :
    DecidablePred (WireField.FitsSnap caches type valLen) := fun f => by
  cases f <;> simp only [WireField.FitsSnap] <;> infer_instance

/-- The fields of one snapshot: those of `snapFormat`, and its value. -/
abbrev SnapFields := List WireField × List WireField

/-- One snapshot. -/
def readSnap (m : List Byte) (pub : PubShape) : ℕ → Option (SnapFields × ℕ) :=
  andThen (readFields m snapFormat) fun snap =>
    check (readFields m (snapValFormat (intAt snap 4))) fun val =>
      ∀ f ∈ val, f.FitsSnap pub.Caches (intAt snap 4) (intAt snap 5)

/-- **The accesses of `SOS_val_snap_queue_from_buffer`**, for a pub that is known. When
there is a snapshot, their list goes to the cache. -/
def snapsReads (m : List Byte) (pub : PubShape) :
    Option ((List WireField × List WireField × List SnapFields) × ℕ) :=
  andThen (readFields m headerFormat) (fun _ =>
    andThen (readFields m ['i']) fun count =>
      check (times (fun _ => readSnap m pub) (intAt count 0).toInt.toNat 0) fun snaps =>
        snaps ≠ [] → pub.Caches → pub.TakesList) 0

/-! ## Staying in bounds

A decoder that stays in bounds comes to its end: it reads only bytes that were
received, uses only the memory it has and the slots of the cache, and takes only
elements of the pub. -/

/-- `SOS_announce_from_buffer` stays in bounds. -/
def AnnounceInBounds (msg : Received) (pub : PubShape) : Prop := (announceReads msg.bytes pub).isSome

/-- `SOS_publish_from_buffer` stays in bounds. -/
def PublishInBounds (msg : Received) (pub : PubShape) : Prop := (publishReads msg.bytes pub).isSome

/-- `SOS_val_snap_queue_from_buffer` stays in bounds. -/
def SnapsInBounds (msg : Received) (pub : PubShape) : Prop := (snapsReads msg.bytes pub).isSome

instance (msg : Received) (pub : PubShape) : Decidable (AnnounceInBounds msg pub) := by
  unfold AnnounceInBounds
  infer_instance

instance (msg : Received) (pub : PubShape) : Decidable (PublishInBounds msg pub) := by
  unfold PublishInBounds
  infer_instance

instance (msg : Received) (pub : PubShape) : Decidable (SnapsInBounds msg pub) := by
  unfold SnapsInBounds
  infer_instance

/-! ## Well-formed messages -/

/-- The fields are those that a format asks for. -/
def Asked (format : List Char) (fs : List WireField) : Prop := fs.map WireField.letter = format

/-- **The fields of an ANNOUNCE.** -/
structure AnnounceFields where
  header : List WireField
  metadata : List WireField
  definitions : List (List WireField)

/-- The bytes of an ANNOUNCE. -/
def AnnounceFields.enc (a : AnnounceFields) : List Byte :=
  encFields a.header ++ (encFields a.metadata ++ a.definitions.flatMap encFields)

/-- **A well-formed ANNOUNCE** for a pub: as many definitions as it counts, strings that fit
the arrays, and names that end in them where the definition is new to the pub. -/
structure AnnounceFields.WellFormed (pub : PubShape) (a : AnnounceFields) : Prop where
  header : Asked headerFormat a.header
  metadata : Asked announceFormat a.metadata
  arrays : FitArrays a.metadata
  count : a.definitions.length = (intAt a.metadata 9).toInt.toNat
  definition : ∀ elem d, a.definitions[elem]? = some d → Asked defFormat d ∧ NamedIn pub elem d

/-- **The fields of a PUBLISH.** -/
structure PublishFields where
  header : List WireField
  frame : List WireField
  elems : List ElemFields

/-- The bytes of an element. -/
def encElem (e : ElemFields) : List Byte :=
  encFields e.1 ++ (encFields e.2.1 ++ encFields e.2.2)

/-- The bytes of a PUBLISH. -/
def PublishFields.enc (a : PublishFields) : List Byte :=
  encFields a.header ++ (encFields a.frame ++ a.elems.flatMap encElem)

/-- **A well-formed element**: one the pub has, with a value of the type it has there,
and a string no longer than the memory that is asked for it, for an element whose
string there can be freed. -/
structure WellFormedElem (pub : PubShape) (e : ElemFields) : Prop where
  index : Asked ['i'] e.1
  allocated : HasElem pub (intAt e.1 0)
  freed : CanFree pub (intAt e.1 0)
  data : Asked elemFormat e.2.1
  val : Asked (valFormat (pub.type (intAt e.1 0).toInt.toNat)) e.2.2
  room : ∀ f ∈ e.2.2, f.FitsElem (intAt e.2.1 2)

/-- **A well-formed PUBLISH** for a pub. -/
structure PublishFields.WellFormed (pub : PubShape) (a : PublishFields) : Prop where
  header : Asked headerFormat a.header
  frame : Asked ['l'] a.frame
  elem : ∀ e ∈ a.elems, WellFormedElem pub e

/-- **The fields of a VAL_SNAPS.** -/
structure SnapsFields where
  header : List WireField
  count : List WireField
  snaps : List SnapFields

/-- The bytes of a snapshot. -/
def encSnap (s : SnapFields) : List Byte := encFields s.1 ++ encFields s.2

/-- The bytes of a VAL_SNAPS. -/
def SnapsFields.enc (a : SnapsFields) : List Byte :=
  encFields a.header ++ (encFields a.count ++ a.snaps.flatMap encSnap)

/-- **A well-formed snapshot**: a value of the type it says it has, that is no block,
and a string no longer than the memory that is asked for it, that ends there if the
pub caches it. -/
structure WellFormedSnap (pub : PubShape) (s : SnapFields) : Prop where
  snap : Asked snapFormat s.1
  val : Asked (snapValFormat (intAt s.1 4)) s.2
  room : ∀ f ∈ s.2, f.FitsSnap pub.Caches (intAt s.1 4) (intAt s.1 5)

/-- **A well-formed VAL_SNAPS** for a pub: as many snapshots as it counts, and a slot for
them if the pub caches them. -/
structure SnapsFields.WellFormed (pub : PubShape) (a : SnapsFields) : Prop where
  header : Asked headerFormat a.header
  count : Asked ['i'] a.count
  length : a.snaps.length = (intAt a.count 0).toInt.toNat
  snap : ∀ s ∈ a.snaps, WellFormedSnap pub s
  slot : a.snaps ≠ [] → pub.Caches → pub.TakesList

/-! ## What the decoders read -/

variable {m : List Byte} {pub : PubShape}

/-- Growing goes on until the elements are there. -/
theorem expandTo_some {elem : ℤ} {rounds elemMax n : ℕ} (h : expandTo elem rounds elemMax = some n) :
    elem ≤ n := by
  induction rounds generalizing elemMax with
  | zero => cases h
  | succ rounds ih =>
      rw [expandTo] at h
      split at h
      case isTrue =>
        split at h
        case isTrue => exact ih h
        case isFalse => cases h
      case isFalse hge =>
        obtain rfl := Option.some.inj h
        omega

/-- Growing comes to its end, for a count that leaves an `int` room. -/
theorem expandTo_returns {elem : ℤ} {rounds elemMax : ℕ} (hroom : elem + sosDefaultElemMax ≤ intMax)
    (hrounds : elem ≤ elemMax + sosDefaultElemMax * rounds) :
    ∃ n, expandTo elem (rounds + 1) elemMax = some n := by
  induction rounds generalizing elemMax with
  | zero =>
      rw [expandTo, if_neg (by omega)]
      exact ⟨_, rfl⟩
  | succ rounds ih =>
      rw [expandTo]
      split
      case isTrue hlt =>
        rw [if_pos (by omega)]
        refine ih ?_
        rw [Nat.cast_add]
        push_cast at hrounds
        rw [mul_add] at hrounds
        omega
      case isFalse => exact ⟨_, rfl⟩

/-- Every field takes at least four bytes. -/
theorem four_le_length_enc (f : WireField) : 4 ≤ f.enc.length := by
  cases f <;> simp [WireField.enc]

/-- So do some fields. -/
theorem le_length_encFields (fs : List WireField) : 4 * fs.length ≤ (encFields fs).length := by
  induction fs with
  | nil => exact Nat.zero_le _
  | cons f fs ih =>
      have hf := four_le_length_enc f
      rw [encFields, List.flatMap_cons, List.length_append, List.length_cons]
      change _ ≤ _ + (encFields fs).length
      omega

/-- Definitions take more bytes than their number. -/
theorem le_length_definitions {ds : List (List WireField)} (h : ∀ d ∈ ds, Asked defFormat d) :
    36 * ds.length ≤ (ds.flatMap encFields).length := by
  induction ds with
  | nil => exact Nat.zero_le _
  | cons d ds ih =>
      rw [List.forall_mem_cons] at h
      have hfields := congrArg List.length h.1
      have hd := le_length_encFields d
      have hrest := ih h.2
      rw [List.length_map, show defFormat.length = 9 from rfl] at hfields
      rw [List.flatMap_cons, List.length_append, List.length_cons]
      omega

/-- **The definitions are read exactly.** -/
theorem readDefinitions_exact (hm : m.length ≤ intMax) (pub : PubShape)
    (metadata : List WireField) :
    Exact m (fun ds : List (List WireField) => ds.flatMap encFields)
      (fun ds => ds.length = (intAt metadata 9).toInt.toNat ∧
        ∀ elem d, ds[elem]? = some d → Asked defFormat d ∧ NamedIn pub elem d)
      (readDefinitions m pub metadata) := by
  have hint : (intAt metadata 9).toInt < 2 ^ 31 := BitVec.toInt_lt
  unfold readDefinitions
  cases hmax : expandTo (intAt metadata 9).toInt (intMax / sosDefaultElemMax + 2) pub.elemMax with
  | some n =>
      have hle := expandTo_some hmax
      simp only [Option.bind_some]
      have htimes := Exact.times fun j (_ : 0 ≤ j) (hj : j < 0 + (intAt metadata 9).toInt.toNat) =>
        (((readFields_exact hm defFormat).check (NamedIn pub j)).check fun _ => j < n).congr
          fun d => and_iff_left (show j < n by omega)
      refine htimes.congr fun ds => ?_
      simp only [Nat.zero_add]
      exact Iff.rfl
  | none =>
      -- the count is more than the message has bytes for
      refine ⟨?_, fun hread => absurd hread (by simp)⟩
      rintro p ds ⟨hlen, hall⟩ hholds
      exfalso
      have hsize := le_length_definitions fun d hd => by
        obtain ⟨elem, helem⟩ := List.mem_iff_getElem?.mp hd
        exact (hall elem d helem).1
      have hin : (ds.flatMap encFields).length ≤ m.length := by
        have hprefix := hholds.length_le
        rw [List.length_drop] at hprefix
        omega
      have hreturns := @expandTo_returns (intAt metadata 9).toInt (intMax / sosDefaultElemMax + 1)
        pub.elemMax
      unfold intMax sosDefaultElemMax at *
      obtain ⟨n, hn⟩ := hreturns (by omega) (by omega)
      rw [hn] at hmax
      cases hmax

/-- **The accesses of an ANNOUNCE are exact.** -/
theorem announceReads_iff (hm : m.length ≤ intMax) :
    (∃ r, announceReads m pub = some r) ↔
      ∃ a : AnnounceFields, a.WellFormed pub ∧ Holds m 0 a.enc := by
  have hexact := (readFields_exact hm headerFormat).andThen fun _ _ =>
    ((readFields_exact hm announceFormat).check FitArrays).andThen fun metadata _ =>
      readDefinitions_exact hm pub metadata
  refine (hexact.returns_iff 0).trans ?_
  constructor
  · rintro ⟨⟨header, metadata, ds⟩, ⟨hheader, ⟨hmeta, harrays⟩, hlen, hds⟩, hholds⟩
    exact ⟨⟨header, metadata, ds⟩, ⟨hheader, hmeta, harrays, hlen, hds⟩, hholds⟩
  · rintro ⟨a, h, hholds⟩
    exact ⟨⟨a.header, a.metadata, a.definitions⟩,
      ⟨h.header, ⟨h.metadata, h.arrays⟩, h.count, h.definition⟩, hholds⟩

/-- **One element is read exactly.** -/
theorem readElem_exact (hm : m.length ≤ intMax) :
    Exact m encElem (WellFormedElem pub) (readElem m pub) := by
  have hexact := ((readFields_exact hm ['i']).check fun index =>
      HasElem pub (intAt index 0) ∧ CanFree pub (intAt index 0)).andThen fun index _ =>
    (readFields_exact hm elemFormat).andThen fun data _ =>
      (readFields_exact hm (valFormat (pub.type (intAt index 0).toInt.toNat))).check fun val =>
        ∀ f ∈ val, f.FitsElem (intAt data 2)
  refine hexact.congr fun e => ?_
  constructor
  · rintro ⟨⟨hindex, helem, hfree⟩, hdata, hval, hroom⟩
    exact ⟨hindex, helem, hfree, hdata, hval, hroom⟩
  · rintro ⟨hindex, helem, hfree, hdata, hval, hroom⟩
    exact ⟨⟨hindex, helem, hfree⟩, hdata, hval, hroom⟩

/-- **One snapshot is read exactly.** -/
theorem readSnap_exact (hm : m.length ≤ intMax) :
    Exact m encSnap (WellFormedSnap pub) (readSnap m pub) := by
  have hexact := (readFields_exact hm snapFormat).andThen fun snap _ =>
    (readFields_exact hm (snapValFormat (intAt snap 4))).check fun val =>
      ∀ f ∈ val, f.FitsSnap pub.Caches (intAt snap 4) (intAt snap 5)
  refine hexact.congr fun s => ?_
  constructor
  · rintro ⟨hsnap, hval, hroom⟩
    exact ⟨hsnap, hval, hroom⟩
  · rintro ⟨hsnap, hval, hroom⟩
    exact ⟨hsnap, hval, hroom⟩

/-- **The accesses of a VAL_SNAPS are exact.** -/
theorem snapsReads_iff (hm : m.length ≤ intMax) :
    (∃ r, snapsReads m pub = some r) ↔
      ∃ a : SnapsFields, a.WellFormed pub ∧ Holds m 0 a.enc := by
  have htimes : ∀ count, Exact m (fun snaps : List SnapFields => snaps.flatMap encSnap)
      (fun snaps => snaps.length = count ∧ ∀ s ∈ snaps, WellFormedSnap pub s)
      (times (fun _ => readSnap m pub) count 0) := by
    intro count
    have hall := Exact.times fun j (_ : 0 ≤ j) (_ : j < 0 + count) => @readSnap_exact m pub hm
    refine hall.congr fun snaps => and_congr_right fun _ => ?_
    constructor
    · intro h s hs
      obtain ⟨k, hk⟩ := List.mem_iff_getElem?.mp hs
      exact h k s hk
    · exact fun h k s hk => h s (List.mem_of_getElem? hk)
  have hexact := (readFields_exact hm headerFormat).andThen fun _ _ =>
    (readFields_exact hm ['i']).andThen fun count _ =>
      (htimes (intAt count 0).toInt.toNat).check fun snaps =>
        snaps ≠ [] → pub.Caches → pub.TakesList
  refine (hexact.returns_iff 0).trans ?_
  constructor
  · rintro ⟨⟨header, count, snaps⟩, ⟨hheader, hcount, ⟨hlen, hsnaps⟩, hslot⟩, hholds⟩
    exact ⟨⟨header, count, snaps⟩, ⟨hheader, hcount, hlen, hsnaps, hslot⟩, hholds⟩
  · rintro ⟨a, h, hholds⟩
    exact ⟨⟨a.header, a.count, a.snaps⟩,
      ⟨h.header, h.count, ⟨h.length, h.snap⟩, h.slot⟩, hholds⟩

/-- Fields that are asked for have bytes. -/
theorem Asked.enc_ne_nil {c : Char} {format : List Char} {fs : List WireField}
    (h : Asked (c :: format) fs) : encFields fs ≠ [] := by
  cases fs with
  | nil => cases h
  | cons f fs =>
      intro hnil
      exact f.enc_ne_nil (List.append_eq_nil_iff.mp hnil).1

/-- The size in a header is the one in front of the message. -/
theorem intAt_header {header : List WireField} {size : CInt} (h : Asked headerFormat header)
    (hholds : Holds m 0 (encFields header)) (hsize : Holds m 0 (packi32 size)) :
    intAt header 0 = size := by
  cases header with
  | nil => cases h
  | cons f fs =>
      rw [Asked, headerFormat, List.map_cons, List.cons.injEq] at h
      have hletter := h.1
      cases f with
      | int v =>
          rw [encFields, List.flatMap_cons, Mem.holds_append] at hholds
          have hlen : (packi32 v).length = (packi32 size).length := by
            rw [length_packi32, length_packi32]
          exact packi32_inj (hholds.1.unique hsize hlen)
      | _ => simp [WireField.letter] at hletter

/-- **The accesses of a PUBLISH are exact**, on a message with its size in front. -/
theorem publishReads_iff (msg : Received) :
    (∃ r, publishReads msg.bytes pub = some r) ↔
      ∃ a : PublishFields, a.WellFormed pub ∧ msg.bytes = a.enc := by
  have hm := msg.le_int
  have hint : (intOf msg.bytes.length).toInt = msg.bytes.length := toInt_intOf hm
  have hnat : (intOf msg.bytes.length).toInt.toNat = msg.bytes.length := by
    rw [hint, Int.toNat_natCast]
  have hne : ∀ e, WellFormedElem pub e → encElem e ≠ [] := by
    intro e he hnil
    exact he.index.enc_ne_nil (List.append_eq_nil_iff.mp hnil).1
  -- the loop, from behind the frame
  have hloop : ∀ {header frame : List WireField}, Asked headerFormat header → Asked ['l'] frame →
      Holds msg.bytes 0 (encFields header) →
      Holds msg.bytes (0 + (encFields header).length) (encFields frame) → ∀ elems q,
      upTo (readElem msg.bytes pub) (intAt header 0).toInt (intAt header 0).toInt.toNat
          (0 + (encFields header).length + (encFields frame).length) = some (elems, q) ↔
        ((∀ e ∈ elems, WellFormedElem pub e) ∧
          msg.bytes.drop (0 + (encFields header).length + (encFields frame).length) =
            elems.flatMap encElem) ∧ q = msg.bytes.length := by
    intro header frame hheader hframe hholds hholds' elems q
    have hbound := hholds'.bound hframe.enc_ne_nil
    rw [intAt_header hheader hholds msg.size, hint, Int.toNat_natCast]
    exact (readElem_exact hm).upTo hne rfl hbound (by omega)
  constructor
  · rintro ⟨r, hread⟩
    obtain ⟨⟨header, p⟩, hfirst, hread⟩ := Option.bind_eq_some_iff.mp hread
    obtain ⟨⟨rest, q⟩, hrest, -⟩ := Option.bind_eq_some_iff.mp hread
    obtain ⟨⟨frame, p'⟩, hsecond, hrest⟩ := Option.bind_eq_some_iff.mp hrest
    obtain ⟨⟨elems, q'⟩, helems, -⟩ := Option.bind_eq_some_iff.mp hrest
    obtain ⟨hheader, hholds, rfl⟩ := (readFields_exact hm headerFormat).holds hfirst
    obtain ⟨hframe, hholds', rfl⟩ := (readFields_exact hm ['l']).holds hsecond
    obtain ⟨⟨hall, hdrop⟩, -⟩ := (hloop hheader hframe hholds hholds' elems q').mp helems
    refine ⟨⟨header, frame, elems⟩, ⟨hheader, hframe, hall⟩, ?_⟩
    have hwhole := hholds.drop_eq
    rw [hholds'.drop_eq, hdrop] at hwhole
    exact hwhole
  · rintro ⟨a, h, hbytes⟩
    have hwhole : Holds msg.bytes 0 a.enc := by
      rw [← hbytes]
      exact List.prefix_rfl
    obtain ⟨hholds, hrest⟩ := Mem.holds_append.mp hwhole
    obtain ⟨hholds', -⟩ := Mem.holds_append.mp hrest
    have hsplit := hholds.drop_eq
    rw [hholds'.drop_eq] at hsplit
    have hdrop := List.append_cancel_left (List.append_cancel_left (hsplit.symm.trans hbytes))
    have helems := (hloop h.header h.frame hholds hholds' a.elems _).mpr ⟨⟨h.elem, hdrop⟩, rfl⟩
    refine ⟨((a.header, a.frame, a.elems), msg.bytes.length), ?_⟩
    rw [publishReads, andThen, (readFields_exact hm headerFormat).reads h.header hholds]
    simp only [Option.bind_eq_bind, Option.bind_some, andThen,
      (readFields_exact hm ['l']).reads h.frame hholds', helems]

/-- **A decoder stays in bounds, exactly** on the messages that are well-formed for
it. -/
theorem decoders_in_bounds_iff (msg : Received) (pub : PubShape) :
    (AnnounceInBounds msg pub ↔
        ∃ a : AnnounceFields, a.WellFormed pub ∧ Holds msg.bytes 0 a.enc) ∧
      (PublishInBounds msg pub ↔
        ∃ a : PublishFields, a.WellFormed pub ∧ msg.bytes = a.enc) ∧
      (SnapsInBounds msg pub ↔
        ∃ a : SnapsFields, a.WellFormed pub ∧ Holds msg.bytes 0 a.enc) :=
  ⟨Option.isSome_iff_exists.trans (announceReads_iff msg.le_int),
    Option.isSome_iff_exists.trans (publishReads_iff msg),
    Option.isSome_iff_exists.trans (snapsReads_iff msg.le_int)⟩

/-- A pub of integers that caches nothing. -/
def intPub : PubShape where
  elemMax := 1024
  type _ := 0
  defined _ _ := false
  freeable _ := true
  cacheDepth := 0
  cacheHead := 0
  slots := []
  nature := 0

/-- **Messages that drive the decoders out of bounds**: an ANNOUNCE that ends in front of
its first string, a PUBLISH of the element in place -1, a VAL_SNAPS that ends in front
of its one snapshot; and a VAL_SNAPS of a whole snapshot for a pub that was announced
again with a deeper cache. -/
theorem not_decoders_in_bounds :
    ¬ AnnounceInBounds (.ofBody (List.replicate 20 0 ++ [0, 0, 0, 1]) (by decide)) intPub ∧
      ¬ PublishInBounds (.ofBody (List.replicate 28 0 ++ [255, 255, 255, 255]) (by decide))
        intPub ∧
      ¬ SnapsInBounds (.ofBody (List.replicate 20 0 ++ [0, 0, 0, 1]) (by decide)) intPub ∧
      SnapsInBounds (.ofBody (List.replicate 20 0 ++ [0, 0, 0, 1] ++ List.replicate 68 0) (by decide))
        { intPub with cacheDepth := 1, slots := [.null] } ∧
      ¬ SnapsInBounds
        (.ofBody (List.replicate 20 0 ++ [0, 0, 0, 1] ++ List.replicate 68 0) (by decide))
        { intPub with cacheDepth := 3, slots := [.null] } := by
  decide +kernel

end SosFlow
