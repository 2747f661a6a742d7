import SosFlow.Daemon.Receive

/-!
# The tables of the database

`tblPubs` and `tblData` have a row for what was announced, `tblVals` one for
every snapshot. The first two keep the frame of the newest snapshot. It is
not written with each of them: a note per pub and per element remembers it,
and an UPDATE for every note that is dirty follows when all snapshots are
in. A note whose UPDATE finds no row is clean all the same.

A number is kept as the number, not as the text it is printed to, and the
time of the insertion is left out.
-/

namespace SosFlow

/-! ## Rows -/

/-- **A row with the column that is updated.** -/
structure DbRow (α : Type) where
  columns : α
  latestFrame : CInt
deriving DecidableEq

/-- The other columns of `tblPubs`. -/
structure PubColumns where
  guid : SosGuid
  title : CString
  processId : CInt
  threadId : CInt
  commRank : CInt
  nodeId : CString
  progName : CString
  progVer : CString
  pubMeta : SosPubMeta
  pragma : CString
deriving DecidableEq

/-- The other columns of `tblData`. -/
structure DataColumns where
  pubGuid : SosGuid
  guid : SosGuid
  name : CString
  type : ValType
  freq : CInt
  classifier : CInt
  pattern : CInt
  compare : CInt
deriving DecidableEq

/-- A row of `tblVals`. -/
structure ValRow where
  guid : SosGuid
  val : Option SosVal
  frame : CInt
  semantic : CInt
  relationId : SosGuid
  timePack : Double
  timeSend : Double
deriving DecidableEq

/-- What `SOSD_db_insert_pub` binds. -/
def SosPub.columns (pub : SosPub) : PubColumns where
  guid := pub.guid
  title := pub.title
  processId := pub.processId
  threadId := pub.threadId
  commRank := pub.commRank
  nodeId := pub.nodeId
  progName := pub.progName
  progVer := pub.progVer
  pubMeta := pub.pubMeta
  pragma := if 0 < pub.pragmaLen.toInt then pub.pragmaMsg.take pub.pragmaLen.toNat else .empty

/-- What `SOSD_db_insert_data` binds of an element. -/
def SosPub.dataColumns (pub : SosPub) (data : SosData) : DataColumns where
  pubGuid := pub.guid
  guid := data.guid
  name := data.name
  type := data.type
  freq := data.valMeta.freq
  classifier := data.valMeta.classifier
  pattern := data.valMeta.pattern
  compare := data.valMeta.compare

/-- `int frame`, in which the frame of a snapshot is kept. -/
def SosValSnap.intFrame (snap : SosValSnap) : CInt := snap.frame.setWidth 32

/-- What `SOSD_db_insert_vals` binds of a snapshot. A block has an empty text. -/
def SosValSnap.row (snap : SosValSnap) : ValRow where
  guid := snap.guid
  val := if snap.type = .bytes then some (.string .empty) else snap.val.readAs snap.type
  frame := snap.intFrame
  semantic := snap.semantic
  relationId := snap.relationId
  timePack := snap.time.pack
  timeSend := snap.time.send

/-! ## The elements that are inserted -/

namespace SosData

/-- An element with a new definition, of a type that has a text. -/
def ToInsert (data : SosData) : Prop := data.sync = .renew ∧ data.type ≠ .bytes

instance (data : SosData) : Decidable data.ToInsert := by
  unfold ToInsert
  infer_instance

/-- An element behind `SOSD_db_insert_data`. -/
def stored (data : SosData) : SosData :=
  if data.ToInsert then { data with sync := .localSync } else data

end SosData

/-- The elements of `SOSD_db_insert_data`, with their positions. -/
def SosPub.toInsert (pub : SosPub) : List (SosData × ℕ) :=
  (pub.data.zipIdx 0).filter fun p => p.1.ToInsert

/-- The pub behind `SOSD_db_insert_data`. -/
def SosPub.stored (pub : SosPub) : SosPub := { pub with data := pub.data.map SosData.stored }

/-! ## Notes -/

/-- **`SOSD_frame_note`.** -/
structure FrameNote where
  guid : SosGuid
  pubGuid : SosGuid
  frame : CInt
  dirty : Bool
deriving DecidableEq

/-- The note of a snapshot. -/
def SosValSnap.note (snap : SosValSnap) : FrameNote := ⟨snap.guid, snap.pubGuid, snap.intFrame, true⟩

/-- **A snapshot is noted** under its key, in the note there is or in a new one at
the head of the list. -/
def noteFrame (key : FrameNote → SosGuid) (notes : List FrameNote) (snap : SosValSnap) :
    List FrameNote :=
  if ∃ n ∈ notes, key n = key snap.note then
    notes.map fun n =>
      if key n = key snap.note then { n with frame := snap.intFrame, dirty := true } else n
  else snap.note :: notes

/-- `UPDATE … SET latest_frame = frame WHERE guid = guid`. -/
def updateFrame {α : Type} (key : α → SosGuid) (rows : List (DbRow α)) (guid : SosGuid)
    (frame : CInt) : List (DbRow α) :=
  rows.map fun r => if key r.columns = guid then { r with latestFrame := frame } else r

/-- The UPDATEs of the notes that are dirty. -/
def updateFrames {α : Type} (key : α → SosGuid) (noteKey : FrameNote → SosGuid)
    (rows : List (DbRow α)) (notes : List FrameNote) : List (DbRow α) :=
  notes.foldl (fun rows n => if n.dirty then updateFrame key rows (noteKey n) n.frame else rows) rows

/-- An UPDATE leaves the other columns. -/
theorem columns_updateFrames {α : Type} (key : α → SosGuid) (noteKey : FrameNote → SosGuid)
    (rows : List (DbRow α)) (notes : List FrameNote) :
    (updateFrames key noteKey rows notes).map (·.columns) = rows.map (·.columns) := by
  induction notes generalizing rows with
  | nil => rfl
  | cons n rest ih =>
      rw [updateFrames, List.foldl_cons]
      refine (ih _).trans ?_
      split
      case isTrue =>
        rw [updateFrame, List.map_map]
        refine List.map_congr_left fun r _ => ?_
        rw [Function.comp_apply]
        split <;> rfl
      case isFalse => rfl

/-- The notes behind their UPDATEs. -/
def cleanNotes (notes : List FrameNote) : List FrameNote := notes.map fun n => { n with dirty := false }

end SosFlow
