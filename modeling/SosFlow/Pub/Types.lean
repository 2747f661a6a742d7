import SosFlow.Basic

/-!
# Publications, their elements and their snapshots

The records of `sos_types.h` that the client and the daemon share. An
enumeration the code branches on is an inductive type; one it only carries
is the `int` it travels as. A snapshot list linked through `next_snap` is a
list, and `pub->data` is the list of its first `elem_count` elements.
-/

namespace SosFlow

/-- `SOS_val_type`. -/
inductive ValType where
  | int
  | long
  | double
  | string
  | bytes
deriving DecidableEq, Inhabited

/-- The enumerator's value. -/
def ValType.code : ValType → CInt
  | int => 0
  | long => 1
  | double => 2
  | string => 3
  | bytes => 4

/-- The enumerator a value read from a message is. -/
def ValType.ofCode (c : CInt) : Option ValType :=
  if c = 0 then some int
  else if c = 1 then some long
  else if c = 2 then some double
  else if c = 3 then some string
  else if c = 4 then some bytes
  else none

@[simp] theorem ValType.ofCode_code (t : ValType) : ofCode t.code = some t := by
  cases t <;> rfl

/-- `SOS_val_state`. -/
inductive ValState where
  | clean
  | dirty
  | empty
deriving DecidableEq, Inhabited

/-- `SOS_val_sync`. -/
inductive ValSync where
  | default
  | renew
  | localSync
  | cloud
deriving DecidableEq, Inhabited

/-- **`SOS_val`**, the union, by the member it was last written through. A
string or a block is the memory its pointer reaches. -/
inductive SosVal where
  | int (i : CInt)
  | long (l : CLong)
  | double (d : Double)
  | string (c : CString)
  | bytes (b : List Byte)
deriving DecidableEq, Inhabited

namespace SosVal

/-- The type whose member the value was written through. -/
def type : SosVal → ValType
  | int _ => .int
  | long _ => .long
  | double _ => .double
  | string _ => .string
  | bytes _ => .bytes

/-- The eight bytes of the union behind a number. Snapshots are `calloc`ed,
so the upper half of an `int` is zero. -/
def word : SosVal → Option (BitVec 64)
  | int i => some (i.setWidth 64)
  | long l => some l
  | double d => some d
  | string _ => none
  | bytes _ => none

/-- **Reading the union** through the member of a type. Between numbers that
reinterprets the bytes; taking a number for a pointer is undefined, and so
is one pointer for the other. -/
def readAs (v : SosVal) : ValType → Option SosVal
  | .int => v.word.map fun w => int (w.setWidth 32)
  | .long => v.word.map long
  | .double => v.word.map double
  | .string => match v with
    | string c => some (string c)
    | _ => none
  | .bytes => match v with
    | bytes b => some (bytes b)
    | _ => none

/-- The member it was written through gives the value back. -/
@[simp] theorem readAs_type (v : SosVal) : v.readAs v.type = some v := by
  cases v with
  | int i => simp [readAs, word, type]
  | _ => rfl

end SosVal

/-- `SOS_time`. -/
structure SosTime where
  pack : Double
  send : Double
  recv : Double
deriving DecidableEq, Inhabited

/-- `SOS_val_meta`. -/
structure SosValMeta where
  freq : CInt
  semantic : CInt
  classifier : CInt
  pattern : CInt
  compare : CInt
  relationId : SosGuid
deriving DecidableEq, Inhabited

/-- `SOS_data`: one element of a publication. -/
structure SosData where
  guid : SosGuid
  valLen : CInt
  val : SosVal
  type : ValType
  valMeta : SosValMeta
  state : ValState
  sync : ValSync
  time : SosTime
  name : CString
deriving DecidableEq, Inhabited

/-- `SOS_val_snap`: one packed value. -/
structure SosValSnap where
  elem : ℕ
  guid : SosGuid
  pubGuid : SosGuid
  relationId : SosGuid
  frame : CLong
  time : SosTime
  semantic : CInt
  type : ValType
  valLen : CInt
  val : SosVal
deriving DecidableEq, Inhabited

/-- `SOS_pub_meta`. -/
structure SosPubMeta where
  channel : CInt
  nature : CInt
  layer : CInt
  priHint : CInt
  scopeHint : CInt
  retainHint : CInt
deriving DecidableEq, Inhabited

/-- `SOS_NATURE_DAEMON_INTERNAL`. -/
def natureDaemonInternal : CInt := 1

/-- `SOS_NATURE_SOS`. -/
def natureSos : CInt := 10

/-- How the chain of snapshots in a cache slot ends: with `NULL`, in bytes
that are no pointer, or in a snapshot that is its own successor. -/
inductive ChainEnd where
  | null
  | stray
  | loop
deriving DecidableEq, Inhabited

/-- **A slot of `pub->cache`**: the snapshots linked from it, newest first. -/
structure CacheSlot where
  snaps : List SosValSnap
  last : ChainEnd
deriving DecidableEq, Inhabited

/-- A slot that holds `NULL`. -/
def CacheSlot.null : CacheSlot := ⟨[], .null⟩

/-- **`SOS_pub`.** `cache` is the array behind `pub->cache`, `none` while
it is `NULL`. `data` is the first `elem_count` elements and `spare` the
others that are allocated, so that `elem_max` is the length of both. In
`nameTable` the first that was put under a name is kept. -/
structure SosPub where
  guid : SosGuid
  processId : CInt
  threadId : CInt
  commRank : CInt
  pubMeta : SosPubMeta
  announced : Bool
  frame : CLong
  pragmaLen : CInt
  pragmaMsg : CString
  nodeId : CString
  progName : CString
  progVer : CString
  title : CString
  cache : Option (List CacheSlot)
  cacheHead : ℤ
  cacheDepth : ℤ
  data : List SosData
  spare : List SosData
  nameTable : List (CString × ℕ)
deriving DecidableEq, Inhabited

/-- `pub->elem_count`. -/
def SosPub.elemCount (pub : SosPub) : ℕ := pub.data.length

/-- An element as `SOS_pub_init_sized` and `SOS_expand_data` allocate it. -/
def SosData.blank : SosData where
  guid := 0
  valLen := 0
  val := .long 0
  type := .int
  valMeta := ⟨0, 0, 0, 0, 0, 0⟩
  state := .empty
  sync := .default
  time := ⟨0, 0, 0⟩
  name := .empty

/-- `SOS_expand_data`. -/
def sosExpandData (pub : SosPub) : SosPub :=
  { pub with spare := pub.spare ++ List.replicate sosDefaultElemMax .blank }

/-- What `SOS_pub_init_sized` reads of `SOS->config` and its options, where
a negative cache depth is made zero. -/
structure SosConfig where
  nodeId : CString
  processId : CInt
  commRank : CInt
  layer : CInt
  programName : CString
  pubCacheDepth : ℕ
deriving DecidableEq

/-- The configuration of a client of rank 0 that caches nothing. -/
def plainConfig : SosConfig := ⟨.empty, 0, 0, 0, .empty, 0⟩

/-- **`SOS_pub_init_sized`**, with the guid `SOS_uid_next` gave it. -/
def sosPubInitSized (config : SosConfig) (guid : SosGuid) (title : CString) (nature : CInt)
    (newSize : ℕ) : SosPub where
  guid := guid
  processId := config.processId
  threadId := 0
  commRank := config.commRank
  pubMeta := ⟨0, nature, config.layer, 0, 0, 0⟩
  announced := false
  frame := 0
  pragmaLen := 0
  pragmaMsg := .empty
  nodeId := config.nodeId.take sosDefaultStringLen
  progName := config.programName.take sosDefaultStringLen
  progVer := .empty
  title := title.take sosDefaultStringLen
  cache := none
  cacheHead := 0
  cacheDepth := config.pubCacheDepth
  data := []
  spare := List.replicate newSize .blank
  nameTable := []

/-- `SOS_pub_init`. -/
def sosPubInit (config : SosConfig) (guid : SosGuid) (title : CString) (nature : CInt) : SosPub :=
  sosPubInitSized config guid title nature sosDefaultElemMax

/-- `SOS_pub_search`. -/
def sosPubSearch (pub : SosPub) (name : CString) : Option ℕ := pub.nameTable.lookup name

/-- **`SOS_pipe`**: what was pushed and not yet popped, oldest first, and the
`elem_count` that its users keep beside it. -/
structure SosPipe (α : Type*) where
  items : List α
  elemCount : ℤ
deriving DecidableEq, Inhabited

namespace SosPipe

variable {α : Type*}

/-- `SOS_pipe_init`. -/
def empty : SosPipe α := ⟨[], 0⟩

/-- `pipe_push` of one item, with the increment that goes with it. -/
def push (q : SosPipe α) (x : α) : SosPipe α := ⟨q.items ++ [x], q.elemCount + 1⟩

/-- `pipe_pop` of at most `n` items, with the decrement by what it returned. -/
def pop (q : SosPipe α) (n : ℕ) : List α × SosPipe α :=
  (q.items.take n, ⟨q.items.drop n, q.elemCount - (q.items.take n).length⟩)

/-- **The count is right**: `elem_count` is the number of items. -/
def Counted (q : SosPipe α) : Prop := q.elemCount = q.items.length

theorem counted_empty : Counted (empty : SosPipe α) := rfl

theorem Counted.push {q : SosPipe α} (h : q.Counted) (x : α) : (q.push x).Counted := by
  unfold Counted SosPipe.push at *
  simp only [List.length_append, List.length_cons, List.length_nil, h]
  omega

theorem Counted.pop {q : SosPipe α} (h : q.Counted) (n : ℕ) : (q.pop n).2.Counted := by
  unfold Counted SosPipe.pop at *
  simp only [List.length_take, List.length_drop, h]
  omega

/-- Popping `elem_count` items drains a queue whose count is right. -/
theorem Counted.pop_all {q : SosPipe α} (h : q.Counted) :
    q.pop q.elemCount.toNat = (q.items, empty) := by
  unfold Counted at h
  simp [SosPipe.pop, empty, h]

end SosPipe

end SosFlow
