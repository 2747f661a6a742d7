import SosFlow.Buffer.Doubles
import SosFlow.Msg.Builders

/-!
# The doubles of a message

What is packed is read as it was, but for the doubles: each is converted to a
word and back. `overWire` is a value, or a message, behind the two conversions.
And a message is packed at all only if the loops of the conversion end on each
of its doubles (`Converted`).
-/

namespace SosFlow

open Binary

/-! ## Packing them -/

/-- `case 'd'` of `SOS_buffer_pack`. -/
def Field.doubles : Field → List Double
  | .d v => [v]
  | _ => []

/-- The doubles of one call. -/
def PackCall.doubles : PackCall → List Double
  | .fields fs _ => fs.flatMap Field.doubles
  | .bytes _ => []

/-- **The loops end** on every double that is packed. -/
def Converted (calls : List PackCall) : Prop :=
  ∀ d ∈ calls.flatMap PackCall.doubles, LoopsEnd (ofBits d)

/-- They do unless there is an infinity. -/
theorem converted_iff {calls : List PackCall} :
    Converted calls ↔ ∀ d ∈ calls.flatMap PackCall.doubles, ¬ IsInf d := by
  simp only [Converted, loopsEnd_iff]

/-- No infinity is in a list, which is looked through item by item. -/
instance decidableNoInf (doubles : List Double) : Decidable (∀ d ∈ doubles, ¬ IsInf d) :=
  List.decidableBAll (fun d => ¬ IsInf d) doubles

instance (calls : List PackCall) : Decidable (Converted calls) :=
  @decidable_of_iff _ _ converted_iff.symm (decidableNoInf _)

/-! ## Reading them -/

variable [DoubleCodec]

/-- A value as it is read from the wire. -/
def SosVal.overWire : SosVal → SosVal
  | .double d => .double (DoubleCodec.unpack754 (DoubleCodec.pack754 d))
  | v => v

/-- A time as it is read from the wire. -/
def SosTime.overWire (t : SosTime) : SosTime where
  pack := DoubleCodec.unpack754 (DoubleCodec.pack754 t.pack)
  send := DoubleCodec.unpack754 (DoubleCodec.pack754 t.send)
  recv := DoubleCodec.unpack754 (DoubleCodec.pack754 t.recv)

/-- What is published of an element, as it is read from the wire. -/
def PublishElem.overWire (e : PublishElem) : PublishElem :=
  { e with
    pack := DoubleCodec.unpack754 (DoubleCodec.pack754 e.pack)
    send := DoubleCodec.unpack754 (DoubleCodec.pack754 e.send)
    val := e.val.overWire }

/-- A PUBLISH as it is read from the wire. -/
def PublishMsg.overWire (m : PublishMsg) : PublishMsg :=
  { m with elems := m.elems.map PublishElem.overWire }

/-- A VAL_SNAPS as it is read from the wire. -/
def ValSnapsMsg.overWire (m : ValSnapsMsg) : ValSnapsMsg :=
  { m with
    snaps := m.snaps.map fun p => ({ p.1 with time := p.1.time.overWire }, p.2.overWire) }

@[simp] theorem SosVal.type_overWire (v : SosVal) : v.overWire.type = v.type := by
  cases v <;> rfl

end SosFlow
