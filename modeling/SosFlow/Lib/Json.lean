import SosFlow.Lib.Utf8
import SosFlow.Lib.Separated

/-!
# JSON

The grammar of JSON texts over octets, as a relation between what is read,
the octets it is read from and those that are left (`Reads`). Strings are
read as the octets they stand for. A text is a document if it is UTF-8 and
one value with white space around it.

Every text is read in one way (`Reads.unique`), which tells what follows a
part that was read already, and that nothing can be read where no rule
applies. A string without a quote, a backslash or a control character is
read from between quotes as it is (`readsString_plain`).
-/

namespace Json

open Utf8 Separated

/-- Octets. -/
abbrev Text := List (BitVec 8)

/-- **A value.** A number is kept as its text. -/
inductive Value where
  | null
  | bool (b : Bool)
  | number (digits : Text)
  | string (s : Text)
  | array (vs : List Value)
  | object (ms : List (Text × Value))

/-- White space. -/
def space (x : BitVec 8) : Bool :=
  x == ascii ' ' || x == ascii '\t' || x == ascii '\n' || x == ascii '\r'

/-- The text behind its leading white space. -/
def skip (inp : Text) : Text := inp.dropWhile space

/-! ## Numbers -/

/-- A digit. -/
def digit (x : BitVec 8) : Bool := ascii '0' ≤ x && x ≤ ascii '9'

/-- One digit or more. -/
def isDigits (w : Text) : Bool := !w.isEmpty && w.all digit

/-- Digits without a leading zero. -/
def isInt (w : Text) : Bool := isDigits w && (w.head? != some (ascii '0') || w.tail.isEmpty)

/-- Nothing, or a point and digits. -/
def isFraction : Text → Bool
  | [] => true
  | x :: w => x == ascii '.' && isDigits w

/-- Nothing, or an `e` and digits with a sign or none. -/
def isExponent : Text → Bool
  | [] => true
  | x :: w => (x == ascii 'e' || x == ascii 'E') &&
      isDigits (if w.head? == some (ascii '+') || w.head? == some (ascii '-') then w.tail else w)

/-- **A number.** -/
def isNumber (w : Text) : Bool :=
  let w := if w.head? == some (ascii '-') then w.tail else w
  let exponent := fun x => x == ascii 'e' || x == ascii 'E'
  let mantissa := w.takeWhile fun x => !exponent x
  isInt (mantissa.takeWhile (· != ascii '.')) && isFraction (mantissa.dropWhile (· != ascii '.')) &&
    isExponent (w.dropWhile fun x => !exponent x)

/-- What numbers begin with. -/
def startsNumber (x : BitVec 8) : Bool := digit x || x == ascii '-'

/-- What numbers are made of. -/
def inNumber (x : BitVec 8) : Bool :=
  startsNumber x || x == ascii '+' || x == ascii '.' || x == ascii 'e' || x == ascii 'E'

/-! ## Strings -/

/-- The value of a hexadecimal digit. -/
def hexDigit (x : BitVec 8) : Option ℕ :=
  if digit x then some (x.toNat - 48)
  else if ascii 'a' ≤ x ∧ x ≤ ascii 'f' then some (x.toNat - 87)
  else if ascii 'A' ≤ x ∧ x ≤ ascii 'F' then some (x.toNat - 55)
  else none

/-- Four of them, in front of a text. -/
def hex4 : Text → Option ℕ
  | a :: b :: c :: d :: _ => do
    let a ← hexDigit a
    let b ← hexDigit b
    let c ← hexDigit c
    let d ← hexDigit d
    some (((a * 16 + b) * 16 + c) * 16 + d)
  | _ => none

/-- What a backslash and one more octet stand for. -/
def escaped (x : BitVec 8) : Option (BitVec 8) :=
  if x = ascii '"' ∨ x = ascii '\\' ∨ x = ascii '/' then some x
  else if x = ascii 'b' then some 8
  else if x = ascii 'f' then some 12
  else if x = ascii 'n' then some (ascii '\n')
  else if x = ascii 'r' then some (ascii '\r')
  else if x = ascii 't' then some (ascii '\t')
  else none

/-- An octet that stands for itself. -/
def Unescaped (x : BitVec 8) : Prop := 32 ≤ x.toNat ∧ x ≠ ascii '"' ∧ x ≠ ascii '\\'

instance : DecidablePred Unescaped := fun x => by
  unfold Unescaped
  infer_instance

/-- A `\u` with one code or, for a surrogate, with two: the octets it stands for, and how
many it takes. Half a pair stands for nothing. -/
def unicodeUnit (inp : Text) : Option (Text × ℕ) := do
  let code ← hex4 (inp.drop 2)
  if 0xd800 ≤ code ∧ code < 0xdc00 then
    let low ← hex4 (inp.drop 8)
    if (inp.drop 6).take 2 = text "\\u" ∧ 0xdc00 ≤ low ∧ low < 0xe000 then
      some (octets (Char.ofNat (0x10000 + (code - 0xd800) * 0x400 + (low - 0xdc00))), 12)
    else none
  else if 0xdc00 ≤ code ∧ code < 0xe000 then none
  else some (octets (Char.ofNat code), 6)

/-- **What is read first** of a string, and how many octets it takes. -/
def unit : Text → Option (Text × ℕ)
  | [] => none
  | x :: inp =>
    if x = ascii '\\' then
      match inp with
      | [] => none
      | y :: _ => if y = ascii 'u' then unicodeUnit (x :: inp) else (escaped y).map fun z => ([z], 2)
    else if Unescaped x then some ([x], 1)
    else none

/-- **A string is read** behind its first quote: what it stands for, and what is left behind
its second. -/
inductive ReadsString : Text → Text → Text → Prop
  | close {rest : Text} : ReadsString (ascii '"' :: rest) [] rest
  | unit {inp y s rest : Text} {n : ℕ} :
      unit inp = some (y, n) → ReadsString (inp.drop n) s rest → ReadsString inp (y ++ s) rest

/-! ## Values -/

/-- What is read. -/
inductive Item where
  | value (v : Value)
  | elements (vs : List Value)
  | member (name : Text) (v : Value)
  | members (ms : List (Text × Value))

/-- **The grammar.** -/
inductive Reads : Item → Text → Text → Prop
  | null {inp rest : Text} : skip inp = text "null" ++ rest → Reads (.value .null) inp rest
  | true {inp rest : Text} : skip inp = text "true" ++ rest → Reads (.value (.bool true)) inp rest
  | false {inp rest : Text} : skip inp = text "false" ++ rest → Reads (.value (.bool false)) inp rest
  | number {inp next : Text} {x : BitVec 8} :
      skip inp = x :: next → startsNumber x → isNumber ((skip inp).takeWhile inNumber) →
      Reads (.value (.number ((skip inp).takeWhile inNumber))) inp ((skip inp).dropWhile inNumber)
  | string {inp next s rest : Text} :
      skip inp = ascii '"' :: next → ReadsString next s rest → Reads (.value (.string s)) inp rest
  | noElements {inp next rest : Text} :
      skip inp = ascii '[' :: next → skip next = ascii ']' :: rest →
      Reads (.value (.array [])) inp rest
  | array {inp next rest : Text} {vs : List Value} :
      skip inp = ascii '[' :: next → Reads (.elements vs) next rest →
      Reads (.value (.array vs)) inp rest
  | noMembers {inp next rest : Text} :
      skip inp = ascii '\x7b' :: next → skip next = ascii '\x7d' :: rest →
      Reads (.value (.object [])) inp rest
  | object {inp next rest : Text} {ms : List (Text × Value)} :
      skip inp = ascii '\x7b' :: next → Reads (.members ms) next rest →
      Reads (.value (.object ms)) inp rest
  | lastElement {inp mid rest : Text} {v : Value} :
      Reads (.value v) inp mid → skip mid = ascii ']' :: rest → Reads (.elements [v]) inp rest
  | element {inp mid next rest : Text} {v : Value} {vs : List Value} :
      Reads (.value v) inp mid → skip mid = ascii ',' :: next → Reads (.elements vs) next rest →
      Reads (.elements (v :: vs)) inp rest
  | named {inp next mid after rest name : Text} {v : Value} :
      skip inp = ascii '"' :: next → ReadsString next name mid → skip mid = ascii ':' :: after →
      Reads (.value v) after rest → Reads (.member name v) inp rest
  | lastMember {inp mid rest name : Text} {v : Value} :
      Reads (.member name v) inp mid → skip mid = ascii '\x7d' :: rest →
      Reads (.members [(name, v)]) inp rest
  | member {inp mid next rest name : Text} {v : Value} {ms : List (Text × Value)} :
      Reads (.member name v) inp mid → skip mid = ascii ',' :: next → Reads (.members ms) next rest →
      Reads (.members ((name, v) :: ms)) inp rest

/-- **A JSON text.** -/
def Document (inp : Text) (v : Value) : Prop :=
  IsUtf8 inp ∧ ∃ rest, Reads (.value v) inp rest ∧ skip rest = []

/-- **The one value under a name.** -/
def Gives (ms : List (Text × Value)) (name : Text) (v : Value) : Prop :=
  (name, v) ∈ ms ∧ ∀ v', (name, v') ∈ ms → v' = v

/-! ## One way to read -/

variable {inp inp' mid next rest rest' s s' : Text} {v v' : Value}

theorem ReadsString.unique (h : ReadsString inp s rest) (h' : ReadsString inp s' rest') :
    s = s' ∧ rest = rest' := by
  induction h generalizing s' rest' with
  | close =>
      cases h' with
      | close => exact ⟨rfl, rfl⟩
      | unit hunit => cases hunit
  | unit hunit _ ih =>
      cases h' with
      | close => cases hunit
      | unit hunit' hs' =>
          cases hunit.symm.trans hunit'
          obtain ⟨rfl, rfl⟩ := ih hs'
          exact ⟨rfl, rfl⟩

/-- The kinds of values. -/
inductive Shape where
  | null
  | true
  | false
  | number
  | string
  | array
  | object

def Value.shape : Value → Shape
  | null => .null
  | bool Bool.true => .true
  | bool Bool.false => .false
  | number _ => .number
  | string _ => .string
  | array _ => .array
  | object _ => .object

/-- The kind of value that begins with an octet. -/
def lead (x : BitVec 8) : Option Shape :=
  if startsNumber x then some .number
  else if x = ascii 'n' then some .null
  else if x = ascii 't' then some .true
  else if x = ascii 'f' then some .false
  else if x = ascii '"' then some .string
  else if x = ascii '[' then some .array
  else if x = ascii '\x7b' then some .object
  else none

/-- **The first octet tells the kind.** -/
theorem Reads.lead (h : Reads (.value v) inp rest) :
    ∃ x next, skip inp = x :: next ∧ lead x = some v.shape := by
  cases h with
  | null h => exact ⟨_, _, h, rfl⟩
  | true h => exact ⟨_, _, h, rfl⟩
  | false h => exact ⟨_, _, h, rfl⟩
  | number h hstart _ => exact ⟨_, _, h, if_pos hstart⟩
  | string h _ => exact ⟨_, _, h, rfl⟩
  | noElements h _ => exact ⟨_, _, h, rfl⟩
  | array h _ => exact ⟨_, _, h, rfl⟩
  | noMembers h _ => exact ⟨_, _, h, rfl⟩
  | object h _ => exact ⟨_, _, h, rfl⟩

theorem Reads.shape_eq (h : Reads (.value v) inp rest) (h' : Reads (.value v') inp rest') :
    v.shape = v'.shape := by
  obtain ⟨x, next, hx, hv⟩ := h.lead
  obtain ⟨x', next', hx', hv'⟩ := h'.lead
  obtain ⟨rfl, -⟩ := List.cons.inj (hx.symm.trans hx')
  exact Option.some.inj (hv.symm.trans hv')

/-- Elements begin with a value. -/
theorem Reads.elements_value {vs : List Value} (h : Reads (.elements vs) inp rest) :
    ∃ v mid, Reads (.value v) inp mid := by
  cases h with
  | lastElement hv _ => exact ⟨_, _, hv⟩
  | element hv _ _ => exact ⟨_, _, hv⟩

/-- No elements are read where the array ends. -/
theorem not_reads_elements {vs : List Value} (h : skip inp = ascii ']' :: next) :
    ¬ Reads (.elements vs) inp rest := by
  intro hvs
  obtain ⟨v, mid, hv⟩ := hvs.elements_value
  obtain ⟨x, _, hx, hlead⟩ := hv.lead
  obtain ⟨rfl, -⟩ := List.cons.inj (h.symm.trans hx)
  cases hlead

/-- Members begin with a member, and that with a quote. -/
theorem Reads.members_member {ms : List (Text × Value)} (h : Reads (.members ms) inp rest) :
    ∃ name v mid, Reads (.member name v) inp mid := by
  cases h with
  | lastMember hm _ => exact ⟨_, _, _, hm⟩
  | member hm _ _ => exact ⟨_, _, _, hm⟩

theorem Reads.members_quote {ms : List (Text × Value)} (h : Reads (.members ms) inp rest) :
    ∃ next, skip inp = ascii '"' :: next := by
  obtain ⟨name, v, mid, hm⟩ := h.members_member
  cases hm with
  | named h _ _ _ => exact ⟨_, h⟩

/-- No members are read where something else begins. -/
theorem not_reads_members {ms : List (Text × Value)} {x : BitVec 8} (h : skip inp = x :: next)
    (hx : x ≠ ascii '"') : ¬ Reads (.members ms) inp rest := by
  intro hms
  obtain ⟨_, hquote⟩ := hms.members_quote
  exact hx (List.cons.inj (h.symm.trans hquote)).1

/-- What is read behind a bracket. -/
theorem reads_bracket_iff (h : skip inp = ascii '[' :: next) :
    Reads (.value v) inp rest ↔ (v = .array [] ∧ skip next = ascii ']' :: rest) ∨
      ∃ vs, v = .array vs ∧ Reads (.elements vs) next rest := by
  constructor
  · intro hv
    obtain ⟨x, _, hx, hlead⟩ := hv.lead
    obtain ⟨rfl, -⟩ := List.cons.inj (h.symm.trans hx)
    cases hv with
    | noElements h' hclose =>
        obtain ⟨-, rfl⟩ := List.cons.inj (h.symm.trans h')
        exact .inl ⟨rfl, hclose⟩
    | array h' hvs =>
        obtain ⟨-, rfl⟩ := List.cons.inj (h.symm.trans h')
        exact .inr ⟨_, rfl, hvs⟩
    | _ => cases hlead
  · rintro (⟨rfl, hclose⟩ | ⟨vs, rfl, hvs⟩)
    · exact .noElements h hclose
    · exact .array h hvs

/-- What is read behind a brace. -/
theorem reads_brace_iff (h : skip inp = ascii '\x7b' :: next) :
    Reads (.value v) inp rest ↔ (v = .object [] ∧ skip next = ascii '\x7d' :: rest) ∨
      ∃ ms, v = .object ms ∧ Reads (.members ms) next rest := by
  constructor
  · intro hv
    obtain ⟨x, _, hx, hlead⟩ := hv.lead
    obtain ⟨rfl, -⟩ := List.cons.inj (h.symm.trans hx)
    cases hv with
    | noMembers h' hclose =>
        obtain ⟨-, rfl⟩ := List.cons.inj (h.symm.trans h')
        exact .inl ⟨rfl, hclose⟩
    | object h' hms =>
        obtain ⟨-, rfl⟩ := List.cons.inj (h.symm.trans h')
        exact .inr ⟨_, rfl, hms⟩
    | _ => cases hlead
  · rintro (⟨rfl, hclose⟩ | ⟨ms, rfl, hms⟩)
    · exact .noMembers h hclose
    · exact .object h hms

/-- The sort of an item. -/
def Item.sort : Item → ℕ
  | value _ => 0
  | elements _ => 1
  | member _ _ => 2
  | members _ => 3

/-- Nothing else of the sort is read from the text, and it leaves nothing else. -/
def ReadOnce (x : Item) (inp rest : Text) : Prop :=
  ∀ x' rest', Reads x' inp rest' → x.sort = x'.sort → x = x' ∧ rest = rest'

theorem readOnce_value
    (h : ∀ v' rest', Reads (.value v') inp rest' → v = v' ∧ rest = rest') :
    ReadOnce (.value v) inp rest := by
  intro x' rest' h' hsort
  cases x' with
  | value v' =>
      obtain ⟨rfl, rfl⟩ := h v' rest' h'
      exact ⟨rfl, rfl⟩
  | _ => cases hsort

/-- A value without parts. -/
def Value.Scalar : Value → Prop
  | array _ => False
  | object _ => False
  | _ => True

/-- It is told by its kind. -/
theorem Reads.once_scalar (h : Reads (.value v) inp rest) (hscalar : v.Scalar) :
    ReadOnce (.value v) inp rest := by
  refine readOnce_value fun v' rest' h' => ?_
  have hshape := h.shape_eq h'
  cases h with
  | null h =>
      cases h' with
      | null h' => exact ⟨rfl, List.append_cancel_left (h.symm.trans h')⟩
      | _ => cases hshape
  | true h =>
      cases h' with
      | true h' => exact ⟨rfl, List.append_cancel_left (h.symm.trans h')⟩
      | _ => cases hshape
  | false h =>
      cases h' with
      | false h' => exact ⟨rfl, List.append_cancel_left (h.symm.trans h')⟩
      | _ => cases hshape
  | number _ _ _ =>
      cases h' with
      | number => exact ⟨rfl, rfl⟩
      | _ => cases hshape
  | string h hs =>
      cases h' with
      | string h' hs' =>
          obtain ⟨-, rfl⟩ := List.cons.inj (h.symm.trans h')
          obtain ⟨rfl, rfl⟩ := hs.unique hs'
          exact ⟨rfl, rfl⟩
      | _ => cases hshape
  | noElements _ _ => exact hscalar.elim
  | array _ _ => exact hscalar.elim
  | noMembers _ _ => exact hscalar.elim
  | object _ _ => exact hscalar.elim

section

variable {vs : List Value} {ms : List (Text × Value)} {name : Text}

theorem once_noElements (h : skip inp = ascii '[' :: next) (hclose : skip next = ascii ']' :: rest) :
    ReadOnce (.value (.array [])) inp rest := by
  refine readOnce_value fun v' rest' h' => ?_
  rcases (reads_bracket_iff h).mp h' with ⟨rfl, hclose'⟩ | ⟨vs', rfl, hvs'⟩
  · exact ⟨rfl, (List.cons.inj (hclose.symm.trans hclose')).2⟩
  · exact absurd hvs' (not_reads_elements hclose)

theorem once_array (h : skip inp = ascii '[' :: next) (hvs : Reads (.elements vs) next rest)
    (ih : ReadOnce (.elements vs) next rest) : ReadOnce (.value (.array vs)) inp rest := by
  refine readOnce_value fun v' rest' h' => ?_
  rcases (reads_bracket_iff h).mp h' with ⟨rfl, hclose'⟩ | ⟨vs', rfl, hvs'⟩
  · exact absurd hvs (not_reads_elements hclose')
  · obtain ⟨hitem, rfl⟩ := ih _ _ hvs' rfl
    cases hitem
    exact ⟨rfl, rfl⟩

theorem once_noMembers (h : skip inp = ascii '\x7b' :: next)
    (hclose : skip next = ascii '\x7d' :: rest) : ReadOnce (.value (.object [])) inp rest := by
  refine readOnce_value fun v' rest' h' => ?_
  rcases (reads_brace_iff h).mp h' with ⟨rfl, hclose'⟩ | ⟨ms', rfl, hms'⟩
  · exact ⟨rfl, (List.cons.inj (hclose.symm.trans hclose')).2⟩
  · exact absurd hms' (not_reads_members hclose (by decide))

theorem once_object (h : skip inp = ascii '\x7b' :: next) (hms : Reads (.members ms) next rest)
    (ih : ReadOnce (.members ms) next rest) : ReadOnce (.value (.object ms)) inp rest := by
  refine readOnce_value fun v' rest' h' => ?_
  rcases (reads_brace_iff h).mp h' with ⟨rfl, hclose'⟩ | ⟨ms', rfl, hms'⟩
  · exact absurd hms (not_reads_members hclose' (by decide))
  · obtain ⟨hitem, rfl⟩ := ih _ _ hms' rfl
    cases hitem
    exact ⟨rfl, rfl⟩

/-- What closes a list is no comma, so the list ends where it ended. -/
theorem once_lastElement (ih : ReadOnce (.value v) inp mid) (hclose : skip mid = ascii ']' :: rest) :
    ReadOnce (.elements [v]) inp rest := by
  intro x' rest' h' hsort
  cases h' with
  | lastElement hv' hclose' =>
      obtain ⟨hitem, rfl⟩ := ih _ _ hv' rfl
      cases hitem
      exact ⟨rfl, (List.cons.inj (hclose.symm.trans hclose')).2⟩
  | element hv' hcomma' _ =>
      obtain ⟨-, rfl⟩ := ih _ _ hv' rfl
      exact absurd (List.cons.inj (hclose.symm.trans hcomma')).1 (by decide)
  | _ => cases hsort

theorem once_element (ih : ReadOnce (.value v) inp mid) (hcomma : skip mid = ascii ',' :: next)
    (ihs : ReadOnce (.elements vs) next rest) : ReadOnce (.elements (v :: vs)) inp rest := by
  intro x' rest' h' hsort
  cases h' with
  | lastElement hv' hclose' =>
      obtain ⟨-, rfl⟩ := ih _ _ hv' rfl
      exact absurd (List.cons.inj (hcomma.symm.trans hclose')).1 (by decide)
  | element hv' hcomma' hvs' =>
      obtain ⟨hitem, rfl⟩ := ih _ _ hv' rfl
      cases hitem
      obtain ⟨-, rfl⟩ := List.cons.inj (hcomma.symm.trans hcomma')
      obtain ⟨hitems, rfl⟩ := ihs _ _ hvs' rfl
      cases hitems
      exact ⟨rfl, rfl⟩
  | _ => cases hsort

theorem once_named {after : Text} (h : skip inp = ascii '"' :: next)
    (hname : ReadsString next name mid) (hcolon : skip mid = ascii ':' :: after)
    (ih : ReadOnce (.value v) after rest) : ReadOnce (.member name v) inp rest := by
  intro x' rest' h' hsort
  cases h' with
  | named h' hname' hcolon' hv' =>
      obtain ⟨-, rfl⟩ := List.cons.inj (h.symm.trans h')
      obtain ⟨rfl, rfl⟩ := hname.unique hname'
      obtain ⟨-, rfl⟩ := List.cons.inj (hcolon.symm.trans hcolon')
      obtain ⟨hitem, rfl⟩ := ih _ _ hv' rfl
      cases hitem
      exact ⟨rfl, rfl⟩
  | _ => cases hsort

theorem once_lastMember (ih : ReadOnce (.member name v) inp mid)
    (hclose : skip mid = ascii '\x7d' :: rest) : ReadOnce (.members [(name, v)]) inp rest := by
  intro x' rest' h' hsort
  cases h' with
  | lastMember hm' hclose' =>
      obtain ⟨hitem, rfl⟩ := ih _ _ hm' rfl
      cases hitem
      exact ⟨rfl, (List.cons.inj (hclose.symm.trans hclose')).2⟩
  | member hm' hcomma' _ =>
      obtain ⟨-, rfl⟩ := ih _ _ hm' rfl
      exact absurd (List.cons.inj (hclose.symm.trans hcomma')).1 (by decide)
  | _ => cases hsort

theorem once_member (ih : ReadOnce (.member name v) inp mid) (hcomma : skip mid = ascii ',' :: next)
    (ihs : ReadOnce (.members ms) next rest) : ReadOnce (.members ((name, v) :: ms)) inp rest := by
  intro x' rest' h' hsort
  cases h' with
  | lastMember hm' hclose' =>
      obtain ⟨-, rfl⟩ := ih _ _ hm' rfl
      exact absurd (List.cons.inj (hcomma.symm.trans hclose')).1 (by decide)
  | member hm' hcomma' hms' =>
      obtain ⟨hitem, rfl⟩ := ih _ _ hm' rfl
      cases hitem
      obtain ⟨-, rfl⟩ := List.cons.inj (hcomma.symm.trans hcomma')
      obtain ⟨hitems, rfl⟩ := ihs _ _ hms' rfl
      cases hitems
      exact ⟨rfl, rfl⟩
  | _ => cases hsort

end

/-- The lemma of each rule puts the parts together. -/
theorem Reads.once {x : Item} (h : Reads x inp rest) : ReadOnce x inp rest := by
  induction h with
  | null h => exact (Reads.null h).once_scalar trivial
  | true h => exact (Reads.true h).once_scalar trivial
  | false h => exact (Reads.false h).once_scalar trivial
  | number h hstart hnumber => exact (Reads.number h hstart hnumber).once_scalar trivial
  | string h hs => exact (Reads.string h hs).once_scalar trivial
  | noElements h hclose => exact once_noElements h hclose
  | array h hvs ih => exact once_array h hvs ih
  | noMembers h hclose => exact once_noMembers h hclose
  | object h hms ih => exact once_object h hms ih
  | lastElement _ hclose ih => exact once_lastElement ih hclose
  | element _ hcomma _ ih ihs => exact once_element ih hcomma ihs
  | named h hname hcolon _ ih => exact once_named h hname hcolon ih
  | lastMember _ hclose ih => exact once_lastMember ih hclose
  | member _ hcomma _ ih ihs => exact once_member ih hcomma ihs

/-- **Every text is read in one way.** -/
theorem Reads.unique {x x' : Item} (h : Reads x inp rest) (h' : Reads x' inp rest')
    (hsort : x.sort = x'.sort) : x = x' ∧ rest = rest' :=
  h.once x' rest' h' hsort

/-! ## What follows a part -/

/-- Leading white space does not matter. -/
theorem Reads.of_skip {x : Item} (h : Reads x inp rest) (hskip : skip inp = skip inp') :
    Reads x inp' rest := by
  induction h generalizing inp' with
  | null h => exact .null (hskip ▸ h)
  | true h => exact .true (hskip ▸ h)
  | false h => exact .false (hskip ▸ h)
  | number h hstart hnumber =>
      rw [hskip] at h hnumber ⊢
      exact .number h hstart hnumber
  | string h hs => exact .string (hskip ▸ h) hs
  | noElements h hclose => exact .noElements (hskip ▸ h) hclose
  | array h hvs _ => exact .array (hskip ▸ h) hvs
  | noMembers h hclose => exact .noMembers (hskip ▸ h) hclose
  | object h hms _ => exact .object (hskip ▸ h) hms
  | lastElement _ hclose ih => exact .lastElement (ih hskip) hclose
  | element _ hcomma hvs ih _ => exact .element (ih hskip) hcomma hvs
  | named h hname hcolon hv _ => exact .named (hskip ▸ h) hname hcolon hv
  | lastMember _ hclose ih => exact .lastMember (ih hskip) hclose
  | member _ hcomma hms ih _ => exact .member (ih hskip) hcomma hms

/-- Members behind a first one. -/
theorem reads_members_cons {name : Text} {ms : List (Text × Value)}
    (hm : Reads (.member name v) inp mid) (hcomma : skip mid = ascii ',' :: next) :
    Reads (.members ms) inp rest ↔ ∃ ms', ms = (name, v) :: ms' ∧ Reads (.members ms') next rest := by
  constructor
  · intro h
    cases h with
    | lastMember hm' hclose' =>
        obtain ⟨-, rfl⟩ := hm.unique hm' rfl
        exact absurd (List.cons.inj (hcomma.symm.trans hclose')).1 (by decide)
    | member hm' hcomma' hms' =>
        obtain ⟨hitem, rfl⟩ := hm.unique hm' rfl
        cases hitem
        obtain ⟨-, rfl⟩ := List.cons.inj (hcomma.symm.trans hcomma')
        exact ⟨_, rfl, hms'⟩
  · rintro ⟨ms', rfl, hms'⟩
    exact .member hm hcomma hms'

/-- A member with a name that was read. -/
theorem reads_member_iff {name name' after : Text} (h : skip inp = ascii '"' :: next)
    (hname : ReadsString next name mid) (hcolon : skip mid = ascii ':' :: after) :
    Reads (.member name' v) inp rest ↔ name' = name ∧ Reads (.value v) after rest := by
  constructor
  · intro hm
    cases hm with
    | named h' hname' hcolon' hv' =>
        obtain ⟨-, rfl⟩ := List.cons.inj (h.symm.trans h')
        obtain ⟨rfl, rfl⟩ := hname.unique hname'
        obtain ⟨-, rfl⟩ := List.cons.inj (hcolon.symm.trans hcolon')
        exact ⟨rfl, hv'⟩
  · rintro ⟨rfl, hv⟩
    exact .named h hname hcolon hv

/-- An object with members. -/
theorem reads_object_iff (h : skip inp = ascii '\x7b' :: next) (hquote : skip next = ascii '"' :: mid) :
    Reads (.value v) inp rest ↔ ∃ ms, v = .object ms ∧ Reads (.members ms) next rest := by
  refine (reads_brace_iff h).trans (or_iff_right ?_)
  rintro ⟨-, hclose⟩
  exact absurd (List.cons.inj (hquote.symm.trans hclose)).1 (by decide)

/-- An array with elements. -/
theorem reads_array_iff {x : BitVec 8} (h : skip inp = ascii '[' :: next) (hx : skip next = x :: mid)
    (hne : x ≠ ascii ']') :
    Reads (.value v) inp rest ↔ ∃ vs, v = .array vs ∧ Reads (.elements vs) next rest := by
  refine (reads_bracket_iff h).trans (or_iff_right ?_)
  rintro ⟨-, hclose⟩
  exact hne (List.cons.inj (hx.symm.trans hclose)).1

/-! ## Lists of values -/

/-- **Elements with commas between them.** -/
theorem reads_elements_separated {gap fin close : Text} {ws : List (Text × Value)} (hne : ws ≠ [])
    (hread : ∀ p ∈ ws, ∀ rest, Reads (.value p.2) (p.1 ++ rest) rest)
    (hgap : ∀ inp, skip (gap ++ inp) = skip inp) (hclose : skip (fin ++ close) = ascii ']' :: rest) :
    Reads (.elements (ws.map Prod.snd))
      (separated (ascii ',' :: gap) fin (ws.map Prod.fst) ++ close) rest := by
  induction ws with
  | nil => exact absurd rfl hne
  | cons p ws ih =>
      rw [List.forall_mem_cons] at hread
      cases ws with
      | nil =>
          simp only [List.map_cons, List.map_nil, separated_singleton, List.append_assoc]
          exact .lastElement (hread.1 _) hclose
      | cons q ws =>
          have hmore := ih (List.cons_ne_nil q ws) hread.2
          simp only [List.map_cons, separated_cons_cons, List.append_assoc] at hmore ⊢
          exact .element (hread.1 _) rfl (hmore.of_skip (hgap _).symm)

/-- **Members with commas between them.** -/
theorem reads_members_separated {gap fin close : Text} {ws : List (Text × Text × Value)}
    (hne : ws ≠ []) (hread : ∀ p ∈ ws, ∀ rest, Reads (.member p.2.1 p.2.2) (p.1 ++ rest) rest)
    (hgap : ∀ inp, skip (gap ++ inp) = skip inp)
    (hclose : skip (fin ++ close) = ascii '\x7d' :: rest) :
    Reads (.members (ws.map Prod.snd))
      (separated (ascii ',' :: gap) fin (ws.map Prod.fst) ++ close) rest := by
  induction ws with
  | nil => exact absurd rfl hne
  | cons p ws ih =>
      rw [List.forall_mem_cons] at hread
      cases ws with
      | nil =>
          simp only [List.map_cons, List.map_nil, separated_singleton, List.append_assoc]
          exact .lastMember (hread.1 _) hclose
      | cons q ws =>
          have hmore := ih (List.cons_ne_nil q ws) hread.2
          simp only [List.map_cons, separated_cons_cons, List.append_assoc] at hmore ⊢
          exact .member (hread.1 _) rfl (hmore.of_skip (hgap _).symm)

/-! ## Strings without escapes -/

/-- **The string can stand between quotes as it is.** -/
def Plain (s : Text) : Prop := ∀ x ∈ s, Unescaped x

instance : DecidablePred Plain := fun s => by
  unfold Plain
  infer_instance

theorem unit_unescaped {x : BitVec 8} (hx : Unescaped x) (inp : Text) :
    unit (x :: inp) = some ([x], 1) := by
  simp only [unit, if_neg hx.2.2, if_pos hx]

theorem readsString_plain (h : Plain s) (rest : Text) :
    ReadsString (s ++ ascii '"' :: rest) s rest := by
  induction s with
  | nil => exact .close
  | cons x s ih =>
      rw [Plain, List.forall_mem_cons] at h
      exact .unit (unit_unescaped h.1 _) (ih h.2)

/-- A plain string. -/
theorem reads_plain (h : Plain s) (hskip : skip inp = ascii '"' :: (s ++ ascii '"' :: rest)) :
    Reads (.value (.string s)) inp rest :=
  .string hskip (readsString_plain h rest)

/-- A plain string under a plain name. -/
theorem reads_plain_member {name gap : Text} (hname : Plain name) (h : Plain s)
    (hskip : skip inp = ascii '"' :: (name ++ ascii '"' :: gap))
    (hgap : skip gap = ascii ':' :: next)
    (hnext : skip next = ascii '"' :: (s ++ ascii '"' :: rest)) :
    Reads (.member name (.string s)) inp rest :=
  .named hskip (readsString_plain hname gap) hgap (reads_plain h hnext)

/-- **A string under a name**, with white space in front and before the colon. -/
def memberText (lead name gap s : Text) : Text :=
  lead ++ ascii '"' :: (name ++ ascii '"' :: (gap ++ ascii ':' :: ascii ' ' :: ascii '"' ::
    (s ++ [ascii '"'])))

theorem isUtf8_memberText {lead name gap : Text} (hlead : IsUtf8 lead) (hname : IsUtf8 name)
    (hgap : IsUtf8 gap) (hs : IsUtf8 s) : IsUtf8 (memberText lead name gap s) := by
  have hquote : IsUtf8 (text "\"") := isUtf8_low (by decide)
  have hcolon : IsUtf8 (text ": \"") := isUtf8_low (by decide)
  have hall := hlead.append (hquote.append (hname.append (hquote.append (hgap.append
    (hcolon.append (hs.append hquote))))))
  simpa [memberText, text] using hall

theorem skip_append {gap : Text} (h : ∀ x ∈ gap, space x) (inp : Text) :
    skip (gap ++ inp) = skip inp := by
  induction gap with
  | nil => rfl
  | cons x gap ih =>
      rw [List.forall_mem_cons] at h
      rw [skip, List.cons_append, List.dropWhile_cons, if_pos h.1]
      exact ih h.2

/-- The name and the string are UTF-8 where the text they stand in is. -/
theorem isUtf8_of_memberText {lead name gap t : Text} (ht : IsUtf8 t)
    (h : memberText lead name gap s <:+: t) : IsUtf8 name ∧ IsUtf8 s := by
  obtain ⟨a, b, rfl⟩ := h
  have hsplit : a ++ memberText lead name gap s ++ b = (a ++ lead) ++ ascii '"' :: (name ++ ascii '"' ::
      ((gap ++ [ascii ':', ascii ' ']) ++ ascii '"' :: (s ++ ascii '"' :: b))) := by
    simp [memberText]
  have hquote : (ascii '"').toNat < 128 := by decide
  rw [hsplit, isUtf8_cut hquote, isUtf8_cut hquote, isUtf8_cut hquote, isUtf8_cut hquote] at ht
  exact ⟨ht.2.1, ht.2.2.2.1⟩

/-- White space in front of anything else is skipped. -/
theorem skip_token {gap : Text} {x : BitVec 8} (h : ∀ x ∈ gap, space x) (hx : space x = false)
    (inp : Text) : skip (gap ++ x :: inp) = x :: inp := by
  rw [skip_append h, skip, List.dropWhile_cons, hx]
  rfl

theorem reads_memberText {lead name gap : Text} (hlead : ∀ x ∈ lead, space x) (hname : Plain name)
    (hgap : ∀ x ∈ gap, space x) (hs : Plain s) (rest : Text) :
    Reads (.member name (.string s)) (memberText lead name gap s ++ rest) rest := by
  rw [memberText, List.append_assoc]
  refine .of_skip ?_ (skip_append hlead _).symm
  simp only [List.cons_append, List.append_assoc]
  exact reads_plain_member hname hs rfl (skip_append hgap _) rfl

/-! ## Where strings stand -/

theorem skip_suffix (inp : Text) : skip inp <:+ inp := List.dropWhile_suffix _

theorem suffix_of_skip {x : BitVec 8} (h : skip inp = x :: next) : next <:+ inp :=
  (List.suffix_cons x next).trans (h ▸ skip_suffix inp)

theorem ReadsString.suffix (h : ReadsString inp s rest) : rest <:+ inp := by
  induction h with
  | close => exact List.suffix_cons _ _
  | unit _ _ ih => exact ih.trans (List.drop_suffix _ _)

theorem Reads.suffix {x : Item} (h : Reads x inp rest) : rest <:+ inp := by
  induction h with
  | null h => exact (List.suffix_append _ _).trans (h ▸ skip_suffix _)
  | true h => exact (List.suffix_append _ _).trans (h ▸ skip_suffix _)
  | false h => exact (List.suffix_append _ _).trans (h ▸ skip_suffix _)
  | number _ _ _ => exact (List.dropWhile_suffix _).trans (skip_suffix _)
  | string h hs => exact hs.suffix.trans (suffix_of_skip h)
  | noElements h hclose => exact (suffix_of_skip hclose).trans (suffix_of_skip h)
  | array h _ ih => exact ih.trans (suffix_of_skip h)
  | noMembers h hclose => exact (suffix_of_skip hclose).trans (suffix_of_skip h)
  | object h _ ih => exact ih.trans (suffix_of_skip h)
  | lastElement _ hclose ih => exact (suffix_of_skip hclose).trans ih
  | element _ hcomma _ ih ihs => exact ihs.trans ((suffix_of_skip hcomma).trans ih)
  | named h hname hcolon _ ih =>
      exact ih.trans ((suffix_of_skip hcolon).trans (hname.suffix.trans (suffix_of_skip h)))
  | lastMember _ hclose ih => exact (suffix_of_skip hclose).trans ih
  | member _ hcomma _ ih ihs => exact ihs.trans ((suffix_of_skip hcomma).trans ih)

/-- **The string stands in the text**, behind a quote. -/
def Stands (inp s : Text) : Prop :=
  ∃ next rest, ascii '"' :: next <:+ inp ∧ ReadsString next s rest

theorem Stands.mono (h : Stands inp s) (hsuffix : inp <:+ inp') : Stands inp' s := by
  obtain ⟨next, rest, hnext, hs⟩ := h
  exact ⟨next, rest, hnext.trans hsuffix, hs⟩

theorem Reads.stands (h : Reads (.value (.string s)) inp rest) : Stands inp s := by
  cases h with
  | string h hs => exact ⟨_, _, h ▸ skip_suffix _, hs⟩

/-- Of the elements of an array, each is read from a part of its text. -/
theorem Reads.of_mem_elements {vs : List Value} (h : Reads (.elements vs) inp rest) (hv : v ∈ vs) :
    ∃ inp' rest', inp' <:+ inp ∧ Reads (.value v) inp' rest' := by
  induction vs generalizing inp with
  | nil => cases hv
  | cons first vs ih =>
      cases h with
      | lastElement hfirst _ =>
          obtain rfl := List.mem_singleton.mp hv
          exact ⟨_, _, List.suffix_refl _, hfirst⟩
      | element hfirst hcomma hvs =>
          rcases List.mem_cons.mp hv with rfl | hv
          · exact ⟨_, _, List.suffix_refl _, hfirst⟩
          · obtain ⟨inp', rest', hsuffix, hv⟩ := ih hvs hv
            exact ⟨inp', rest', hsuffix.trans ((suffix_of_skip hcomma).trans hfirst.suffix), hv⟩

theorem Reads.of_mem_array {vs : List Value} (h : Reads (.value (.array vs)) inp rest) (hv : v ∈ vs) :
    ∃ inp' rest', inp' <:+ inp ∧ Reads (.value v) inp' rest' := by
  cases h with
  | noElements => cases hv
  | array h hvs =>
      obtain ⟨inp', rest', hsuffix, hv⟩ := hvs.of_mem_elements hv
      exact ⟨inp', rest', hsuffix.trans (suffix_of_skip h), hv⟩

/-- Of the members of an object, each is. -/
theorem Reads.of_mem_members {ms : List (Text × Value)} {name : Text}
    (h : Reads (.members ms) inp rest) (hm : (name, v) ∈ ms) :
    ∃ inp' rest', inp' <:+ inp ∧ Reads (.member name v) inp' rest' := by
  induction ms generalizing inp with
  | nil => cases hm
  | cons first ms ih =>
      cases h with
      | lastMember hfirst _ =>
          obtain hm := List.mem_singleton.mp hm
          cases hm
          exact ⟨_, _, List.suffix_refl _, hfirst⟩
      | member hfirst hcomma hms =>
          rcases List.mem_cons.mp hm with hm | hm
          · cases hm
            exact ⟨_, _, List.suffix_refl _, hfirst⟩
          · obtain ⟨inp', rest', hsuffix, hm⟩ := ih hms hm
            exact ⟨inp', rest', hsuffix.trans ((suffix_of_skip hcomma).trans hfirst.suffix), hm⟩

/-- **The value of a member** is read from a part of the text of its object, and its name
stands there. -/
theorem Reads.of_mem_object {ms : List (Text × Value)} {name : Text}
    (h : Reads (.value (.object ms)) inp rest) (hm : (name, v) ∈ ms) :
    Stands inp name ∧ ∃ inp' rest', inp' <:+ inp ∧ Reads (.value v) inp' rest' := by
  cases h with
  | noMembers => cases hm
  | object h hms =>
      obtain ⟨inp', rest', hsuffix, hm⟩ := hms.of_mem_members hm
      have hinp := hsuffix.trans (suffix_of_skip h)
      cases hm with
      | named hquote hname hcolon hv =>
          have hafter := (suffix_of_skip hcolon).trans (hname.suffix.trans (suffix_of_skip hquote))
          refine ⟨⟨_, _, ?_, hname⟩, _, _, hafter.trans hinp, hv⟩
          exact (hquote ▸ skip_suffix inp').trans hinp

/-- **The name and the string of a member** stand in the text of its object. -/
theorem Reads.stands_of_mem {ms : List (Text × Value)} {name : Text}
    (h : Reads (.value (.object ms)) inp rest) (hm : (name, .string s) ∈ ms) :
    Stands inp name ∧ Stands inp s := by
  obtain ⟨hname, inp', rest', hsuffix, hs⟩ := h.of_mem_object hm
  exact ⟨hname, hs.stands.mono hsuffix⟩

end Json
