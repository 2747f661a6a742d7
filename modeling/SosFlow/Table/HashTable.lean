import SosFlow.Basic
import SosFlow.Lib.Chained

/-!
# The hash table

Names, guids and references are looked up in a `qhashtbl_t`: an array of
slots, each a chain of the objects whose hash falls on it. `put` keeps the
value that a key has, and walks the chain to see whether it has one.

An object is named by when it was allocated, so that one that was freed is
not taken for another: to read one, or to link one, is a fault. So is one
more object than `num` can count, or a key longer than `keylen` can say.

There may be no memory for an object, which `qhput` looks at. The copies of
the keys, which nobody looks at, are taken to have their memory.
-/

namespace SosFlow

open Linked

/-! ## The hash of a key -/

/-- A block of four bytes. -/
def wordOf (a b c d : Byte) : BitVec 32 := d ++ c ++ b ++ a

/-- `k`, for a block. -/
def mixBlock (h k : BitVec 32) : BitVec 32 :=
  let k := k * 0xcc9e2d51#32
  let k := k <<< 15 ||| k >>> 17
  let k := k * 0x1b873593#32
  let h := h ^^^ k
  let h := h <<< 13 ||| h >>> 19
  h * 5#32 + 0xe6546b64#32

/-- `k`, for the bytes behind the blocks. The two shifts do not make a rotation. -/
def mixTail (h k : BitVec 32) : BitVec 32 :=
  let k := k * 0xcc9e2d51#32
  let k := k <<< 13 ||| k >>> 17
  let k := k * 0x1b873593#32
  h ^^^ k

/-- The blocks one after the other, and the one, two or three bytes behind them. -/
def mixBytes : List Byte → BitVec 32 → BitVec 32
  | a :: b :: c :: d :: rest, h => mixBytes rest (mixBlock h (wordOf a b c d))
  | [a, b, c], h => mixTail h (wordOf a b c 0)
  | [a, b], h => mixTail h (wordOf a b 0 0)
  | [a], h => mixTail h (wordOf a 0 0 0)
  | [], h => h

/-- `qhashmurmur3_32`. -/
def qhashmurmur3_32 (data : List Byte) : BitVec 32 :=
  if data = [] then 0
  else
    let h := mixBytes data 0
    let h := h ^^^ BitVec.ofNat 32 data.length
    let h := h ^^^ h >>> 16
    let h := h * 0x85ebca6b#32
    let h := h ^^^ h >>> 13
    let h := h * 0xc2b2ae35#32
    h ^^^ h >>> 16

/-- `"sample1"`. -/
example : qhashmurmur3_32 [115, 97, 109, 112, 108, 101, 49] = 1930549194#32 := by decide

/-- **The hash of a key**, whose length is an `int`. -/
def hashOf (key : CString) : Option (BitVec 32) :=
  if key.length ≤ intMax then some (qhashmurmur3_32 key.bytes) else none

/-! ## The table -/

/-- **`qhnobj_t`**, without its link. A `void *` is its address, and 0 is `NULL`. -/
structure QhNobj where
  hash : BitVec 32
  key : CString
  value : BitVec 64
deriving DecidableEq

/-- **`qhashtbl_t`**, with the objects in memory, and how many were allocated. -/
structure QHashTbl (range : ℕ) where
  num : ℤ
  slots : Fin range → Chain ℕ
  mem : Memory ℕ QhNobj
  fresh : ℕ

/-- **`qhashtbl`**, for a range that is not refused. -/
def qhashtbl (range : ℕ) : QHashTbl range := ⟨0, fun _ => .empty, fun _ => none, 0⟩

/-- `genkey`. -/
def genkey (path : Option CString) (name : CString) : CString :=
  match path with
  | none => name
  | some path =>
    if path = .empty then name
    else ⟨(if path.bytes = [47] then [47] else path.bytes ++ [47]) ++ name.bytes, by
      intro x hx
      rcases List.mem_append.mp hx with hx | hx
      · split at hx
        case isTrue =>
          rw [List.mem_singleton.mp hx]
          decide
        case isFalse =>
          rcases List.mem_append.mp hx with hx | hx
          · exact path.nonzero x hx
          · rw [List.mem_singleton.mp hx]
            decide
      · exact name.nonzero x hx⟩

namespace QHashTbl

variable {range : ℕ} [NeZero range]

/-- `idx`. -/
def slotOf (range : ℕ) [NeZero range] (hash : BitVec 32) : Fin range :=
  Fin.ofNat range hash.toNat

/-- What the walks compare. -/
def isKey (hash : BitVec 32) (key : CString) (obj : QhNobj) : Bool :=
  obj.hash = hash ∧ obj.key = key

/-- **The walk to a key**: the pointer in front of its object, and to it. -/
def find (t : QHashTbl range) (hash : BitVec 32) (key : CString) :
    Option (Option ℕ × Option ℕ) :=
  Chain.walk (isKey hash key) t.mem t.fresh none (t.slots (slotOf range hash)).head

/-- **`qhput`**; `mallocs` tells whether there is memory for an object. -/
def qhput (t : QHashTbl range) (key : CString) (data : BitVec 64) (mallocs : Bool) :
    Option (Bool × QHashTbl range) := do
  let hash ← hashOf key
  let idx := slotOf range hash
  match (← t.find hash key).2 with
  | some _ => some (true, t)
  | none =>
    if mallocs = false then some (false, t)
    else if t.num = intMax then none
    else
      let mem := Function.update t.mem t.fresh (some ⟨⟨hash, key, data⟩, none⟩)
      let (mem, slot) ← (t.slots idx).append mem t.fresh
      some (true, ⟨t.num + 1, Function.update t.slots idx slot, mem, t.fresh + 1⟩)

/-- `put2`. -/
def put2 (t : QHashTbl range) (path : Option CString) (name : CString) (data : BitVec 64)
    (mallocs : Bool) : Option (Bool × QHashTbl range) :=
  t.qhput (genkey path name) data mallocs

/-- `put`, which refuses no path. -/
def put (t : QHashTbl range) (fullpath : Option CString) (data : BitVec 64) (mallocs : Bool) :
    Option (Bool × QHashTbl range) :=
  match fullpath with
  | none => some (false, t)
  | some key => t.qhput key data mallocs

/-- `qhget`. -/
def qhget (t : QHashTbl range) (key : CString) : Option (BitVec 64) := do
  let hash ← hashOf key
  match (← t.find hash key).2 with
  | none => some 0
  | some obj => (t.mem obj).map fun cell => cell.val.value

/-- `get`. -/
def get (t : QHashTbl range) (fullpath : Option CString) : Option (BitVec 64) :=
  match fullpath with
  | none => some 0
  | some key => t.qhget key

/-- `get2`. -/
def get2 (t : QHashTbl range) (path : Option CString) (name : CString) : Option (BitVec 64) :=
  t.qhget (genkey path name)

/-- `remove_`. -/
def remove_ (t : QHashTbl range) (key : CString) : Option (Bool × QHashTbl range) := do
  let hash ← hashOf key
  let idx := slotOf range hash
  let (prev, obj) ← t.find hash key
  match obj with
  | none => some (false, t)
  | some obj =>
    let (mem, slot) ← (t.slots idx).remove t.mem prev obj
    some (true, { t with num := t.num - 1, slots := Function.update t.slots idx slot, mem })

/-- `size`. -/
def size (t : QHashTbl range) : ℤ := t.num

/-- One slot of `clear`. -/
def clearSlot (t : QHashTbl range) (idx : Fin range) : Option (QHashTbl range) :=
  (Chain.drain t.mem t.fresh (t.slots idx).head).map fun (mem, freed) =>
    { t with num := t.num - freed, slots := Function.update t.slots idx .empty, mem }

/-- The slots one after the other, until nothing is counted. -/
def clearSlots : List (Fin range) → QHashTbl range → Option (QHashTbl range)
  | [], t => some t
  | idx :: rest, t => if t.num > 0 then (t.clearSlot idx).bind (clearSlots rest) else some t

/-- `clear`. -/
def clear (t : QHashTbl range) : Option (QHashTbl range) := clearSlots (List.finRange range) t

/-- **`free_`**: the objects that are left when the slots and the table have been freed. -/
def free_ (t : QHashTbl range) : Option (Memory ℕ QhNobj) := t.clear.map fun t => t.mem

end QHashTbl

end SosFlow
