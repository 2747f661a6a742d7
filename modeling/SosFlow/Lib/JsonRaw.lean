import SosFlow.Lib.Json

/-!
# What stands between the quotes of a string

A string that is not plain is longer between its quotes than it is, by a
backslash at the least (`Raw`). So a text in which some parts stand as
strings, and which has no room for more than one of them between two quotes
that are not escaped (`Confined`), has plain parts only: the longest of the
others would have to stand in a longer one.
-/

namespace Json

open Utf8 Separated

/-! ## The octets that count -/

/-- An octet that does not count: what separates the strings of a text. -/
def silent (x : BitVec 8) : Bool :=
  x == ascii '"' || x == ascii ' ' || x == ascii ':' || x == ascii '\t' || x == ascii ','

/-- The length without them. -/
def weight (w : Text) : ℕ := w.countP fun x => !silent x

theorem weight_append (a b : Text) : weight (a ++ b) = weight a + weight b := List.countP_append

theorem weight_le_length (a : Text) : weight a ≤ a.length := List.countP_le_length

/-- **What stands between the quotes** of a string: no line end, no quote without a
backslash in front of it, and either the string or more than that, with a backslash. -/
structure Raw (raw s : Text) : Prop where
  line : ascii '\n' ∉ raw
  quotes : ∀ x y, raw = x ++ ascii '"' :: y → ∃ x', x = x' ++ [ascii '\\']
  escapes : (raw = s ∧ Plain s) ∨ (ascii '\\' ∈ raw ∧ weight s < weight raw)

variable {a b s t inp rest y : Text} {n : ℕ}

theorem raw_nil : Raw [] [] where
  line := List.not_mem_nil
  quotes x y h := by simp at h
  escapes := .inl ⟨rfl, fun x hx => absurd hx List.not_mem_nil⟩

theorem Raw.append (ha : Raw a s) (hb : Raw b t) : Raw (a ++ b) (s ++ t) where
  line h := (List.mem_append.mp h).elim ha.line hb.line
  quotes x y h := by
    rcases List.append_eq_append_iff.mp h with ⟨more, rfl, hmore⟩ | ⟨more, hmore, hrest⟩
    · obtain ⟨x', rfl⟩ := hb.quotes more y hmore
      exact ⟨a ++ x', (List.append_assoc a x' _).symm⟩
    · cases more with
      | nil =>
          rw [List.append_nil] at hmore
          obtain ⟨x', hx'⟩ := hb.quotes [] y hrest.symm
          simp at hx'
      | cons z more =>
          obtain ⟨rfl, -⟩ := List.cons.inj hrest
          exact ha.quotes x more hmore
  escapes := by
    rw [weight_append, weight_append]
    rcases ha.escapes with ⟨rfl, hs⟩ | ⟨hmem, hlt⟩ <;> rcases hb.escapes with ⟨rfl, ht⟩ | ⟨hmem', hlt'⟩
    · exact .inl ⟨rfl, fun x hx => (List.mem_append.mp hx).elim (hs x) (ht x)⟩
    · exact .inr ⟨List.mem_append_right _ hmem', by omega⟩
    · exact .inr ⟨List.mem_append_left _ hmem, by omega⟩
    · exact .inr ⟨List.mem_append_left _ hmem, by omega⟩

/-- Without quotes there is nothing to escape. -/
theorem raw_of_no_quote {raw : Text} (hline : ascii '\n' ∉ raw) (hquote : ascii '"' ∉ raw)
    (h : (raw = s ∧ Plain s) ∨ (ascii '\\' ∈ raw ∧ weight s < weight raw)) : Raw raw s where
  line := hline
  quotes x y hxy := by
    rw [hxy] at hquote
    exact absurd (List.mem_append_right x List.mem_cons_self) hquote
  escapes := h

/-- A hexadecimal digit is a letter or a digit. -/
theorem hexDigit_range : ∀ x : BitVec 8, (hexDigit x).isSome → x ≠ ascii '\n' ∧ silent x = false := by
  decide +kernel

theorem escaped_range : ∀ x : BitVec 8, (escaped x).isSome →
    x ≠ ascii '\n' ∧ x ≠ ascii 'u' ∧
      ∀ z ∈ escaped x, weight [z] < weight [ascii '\\', x] := by
  decide +kernel

/-- Four hexadecimal digits. -/
theorem hex4_range {code : ℕ} (h : hex4 inp = some code) :
    (inp.take 4).length = 4 ∧ ∀ x ∈ inp.take 4, x ≠ ascii '\n' ∧ silent x = false := by
  match inp, h with
  | a :: b :: c :: d :: rest, h =>
    simp only [hex4, Option.bind_eq_bind, Option.bind_eq_some_iff] at h
    obtain ⟨_, ha, _, hb, _, hc, _, hd, -⟩ := h
    refine ⟨rfl, ?_⟩
    simp only [List.take_succ_cons, List.take_zero, List.forall_mem_cons, List.not_mem_nil,
      false_imp_iff, implies_true, and_true]
    exact ⟨hexDigit_range a (ha ▸ rfl), hexDigit_range b (hb ▸ rfl), hexDigit_range c (hc ▸ rfl),
      hexDigit_range d (hd ▸ rfl)⟩

/-- More than four octets that all count, with a backslash, stand for a character. -/
theorem raw_octets {raw : Text} (hrange : ∀ x ∈ raw, x ≠ ascii '\n' ∧ silent x = false)
    (hmem : ascii '\\' ∈ raw) (hlen : 4 < raw.length) (c : Char) : Raw raw (octets c) := by
  refine raw_of_no_quote (fun h => (hrange _ h).1 rfl) (fun h => ?_) (.inr ⟨hmem, ?_⟩)
  · exact absurd (hrange _ h).2 (by decide)
  · have hweight : weight raw = raw.length := by
      rw [weight, List.countP_eq_length]
      intro x hx
      rw [(hrange x hx).2]
      rfl
    have hle := weight_le_length (octets c)
    have hfour := length_octets_le c
    omega

theorem unicodeUnit_raw (hu : inp.take 2 = text "\\u") (h : unicodeUnit inp = some (y, n)) :
    Raw (inp.take n) y := by
  have htwo : ∀ x ∈ text "\\u", x ≠ ascii '\n' ∧ silent x = false := by decide
  have hmem : ascii '\\' ∈ text "\\u" := by decide
  simp only [unicodeUnit, Option.bind_eq_bind, Option.bind_eq_some_iff] at h
  obtain ⟨code, hcode, h⟩ := h
  obtain ⟨hlen, hrange⟩ := hex4_range hcode
  have hsix : inp.take 6 = text "\\u" ++ (inp.drop 2).take 4 := by
    rw [← hu, ← List.take_add]
  have hsixRange : ∀ x ∈ inp.take 6, x ≠ ascii '\n' ∧ silent x = false := by
    intro x hx
    rw [hsix] at hx
    exact (List.mem_append.mp hx).elim (htwo x) (hrange x)
  have hsixLen : (inp.take 6).length = 6 := by
    rw [hsix, List.length_append, hlen]
    rfl
  have hsixMem : ascii '\\' ∈ inp.take 6 := hsix ▸ List.mem_append_left _ hmem
  split at h
  case isTrue =>
    simp only [Option.bind_eq_some_iff] at h
    obtain ⟨low, hlow, h⟩ := h
    obtain ⟨-, hrange'⟩ := hex4_range hlow
    split at h
    case isTrue hpair =>
      obtain ⟨rfl, rfl⟩ := Prod.mk.inj (Option.some.inj h)
      have hfour : (inp.drop 6).take 6 = text "\\u" ++ (inp.drop 8).take 4 := by
        rw [← hpair.1, ← List.drop_drop (i := 2) (j := 6), ← List.take_add]
      have htwelve : inp.take 12 = inp.take 6 ++ (text "\\u" ++ (inp.drop 8).take 4) := by
        rw [← hfour, ← List.take_add]
      rw [htwelve]
      refine raw_octets ?_ (List.mem_append_left _ hsixMem) ?_ _
      · intro x hx
        rw [List.mem_append, List.mem_append] at hx
        exact hx.elim (hsixRange x) fun hx => hx.elim (htwo x) (hrange' x)
      · rw [List.length_append, hsixLen]
        omega
    case isFalse => cases h
  case isFalse =>
    split at h
    case isTrue => cases h
    case isFalse =>
      obtain ⟨rfl, rfl⟩ := Prod.mk.inj (Option.some.inj h)
      exact raw_octets hsixRange hsixMem (by omega) _

/-- A backslash and one more octet. -/
theorem escaped_raw {x z : BitVec 8} (h : escaped x = some z) : Raw [ascii '\\', x] [z] := by
  obtain ⟨hline, -, hlt⟩ := escaped_range x (h ▸ rfl)
  refine ⟨?_, ?_, .inr ⟨List.mem_cons_self, hlt z h⟩⟩
  · simp only [List.mem_cons, List.not_mem_nil, or_false, not_or]
    exact ⟨by decide, hline.symm⟩
  · intro a b hab
    match a, hab with
    | [], hab => exact absurd (List.cons.inj hab).1 (by decide)
    | [w], hab => exact ⟨[], by rw [(List.cons.inj hab).1, List.nil_append]⟩
    | w :: w' :: a, hab => simp at hab

theorem unescaped_raw {x : BitVec 8} (h : Unescaped x) : Raw [x] [x] := by
  refine raw_of_no_quote ?_ ?_ (.inl ⟨rfl, by simpa [Plain] using h⟩)
  · rw [List.mem_singleton]
    rintro rfl
    exact absurd h (by decide)
  · rw [List.mem_singleton]
    exact h.2.1.symm

theorem unit_raw (h : unit inp = some (y, n)) : Raw (inp.take n) y := by
  unfold unit at h
  split at h
  case h_1 => cases h
  case h_2 x inp =>
    split at h
    case isTrue hx =>
      subst hx
      split at h
      case h_1 => cases h
      case h_2 z rest =>
        split at h
        case isTrue hz =>
          subst hz
          exact unicodeUnit_raw rfl h
        case isFalse =>
          obtain ⟨w, hw, hout⟩ := Option.map_eq_some_iff.mp h
          cases hout
          exact escaped_raw hw
    case isFalse =>
      split at h
      case isTrue hx =>
        cases h
        exact unescaped_raw hx
      case isFalse => cases h

theorem ReadsString.raw (h : ReadsString inp s rest) :
    ∃ raw, inp = raw ++ ascii '"' :: rest ∧ Raw raw s := by
  induction h with
  | close => exact ⟨[], rfl, raw_nil⟩
  | @unit inp y s rest n hunit _ ih =>
      obtain ⟨raw, hdrop, hraw⟩ := ih
      refine ⟨inp.take n ++ raw, ?_, (unit_raw hunit).append hraw⟩
      rw [List.append_assoc, ← hdrop, List.take_append_drop]

/-! ## Texts that keep strings apart -/

/-- **The text confines its parts**: what can stand between two quotes of it and has a
backslash stands in one of the parts, as far as it counts. -/
def Confined (parts : List Text) (t : Text) : Prop :=
  ∀ raw s, Raw raw s → ascii '\\' ∈ raw → raw <:+: t →
    ∃ w ∈ parts, ascii '\\' ∈ w ∧ weight raw ≤ weight w

variable {parts : List Text}

theorem confined_of_notMem (h : ascii '\\' ∉ t) : Confined parts t :=
  fun _ _ _ hmem hpiece => absurd (hpiece.subset hmem) h

/-- A part and octets that do not count. -/
theorem confined_part {w : Text} (hw : w ∈ parts) (hrest : ∀ x ∈ rest, silent x) :
    Confined parts (w ++ rest) := by
  intro raw s _ hmem hpiece
  refine ⟨w, hw, ?_, ?_⟩
  · refine (List.mem_append.mp (hpiece.subset hmem)).resolve_right fun h => ?_
    exact absurd (hrest _ h) (by decide)
  · have hzero : weight rest = 0 := by
      rw [weight, List.countP_eq_zero]
      intro x hx
      rw [hrest x hx]
      decide
    calc weight raw ≤ weight (w ++ rest) := hpiece.sublist.countP_le
      _ = weight w := by rw [weight_append, hzero, Nat.add_zero]

/-- What is a piece of a text is a piece of one side of an octet, or has the octet in it. -/
theorem infix_split {c : BitVec 8} {raw : Text} (h : raw <:+: a ++ c :: b) :
    raw <:+: a ∨ raw <:+: b ∨ ∃ x y, raw = x ++ c :: y ∧ x <:+ a := by
  rcases List.infix_append_iff.mp h with h | h | ⟨x, z, rfl, hx, hz⟩
  · exact .inl h
  · rcases List.infix_cons_iff.mp h with h | h
    · rcases List.prefix_cons_iff.mp h with rfl | ⟨y, rfl, -⟩
      · exact .inl (List.nil_infix)
      · exact .inr (.inr ⟨[], y, rfl, List.nil_suffix⟩)
    · exact .inr (.inl h)
  · rcases List.prefix_cons_iff.mp hz with rfl | ⟨y, rfl, -⟩
    · exact .inl (by rw [List.append_nil]; exact hx.isInfix)
    · exact .inr (.inr ⟨x, y, rfl, hx⟩)

/-- **A line end** keeps two texts apart. -/
theorem Confined.newline (ha : Confined parts a) (hb : Confined parts b) :
    Confined parts (a ++ ascii '\n' :: b) := by
  intro raw s hraw hmem hpiece
  rcases infix_split hpiece with h | h | ⟨x, y, rfl, -⟩
  · exact ha raw s hraw hmem h
  · exact hb raw s hraw hmem h
  · exact absurd (List.mem_append_right x List.mem_cons_self) hraw.line

/-- **A quote** does, if there is no backslash in front of it. -/
theorem Confined.quote (ha : Confined parts a) (hend : ¬ [ascii '\\'] <:+ a)
    (hb : Confined parts b) : Confined parts (a ++ ascii '"' :: b) := by
  intro raw s hraw hmem hpiece
  rcases infix_split hpiece with h | h | ⟨x, y, rfl, hsuffix⟩
  · exact ha raw s hraw hmem h
  · exact hb raw s hraw hmem h
  · obtain ⟨x', rfl⟩ := hraw.quotes x y rfl
    exact absurd ((List.suffix_append x' _).trans hsuffix) hend

/-- **A member** keeps its name and its string apart. -/
theorem confined_memberText {lead name sep : Text} (hlead : ascii '\\' ∉ lead) (hname : name ∈ parts)
    (hs : s ∈ parts) (hsep : ∀ x ∈ sep, silent x) :
    Confined parts (memberText lead name [] s ++ sep) := by
  have hstring : Confined parts (s ++ ascii '"' :: sep) := by
    refine confined_part hs ?_
    rw [List.forall_mem_cons]
    exact ⟨rfl, hsep⟩
  have hnamed : Confined parts (name ++ [ascii '"', ascii ':', ascii ' ']) :=
    confined_part hname (by decide)
  have hend : ¬ [ascii '\\'] <:+ name ++ [ascii '"', ascii ':', ascii ' '] := by
    have hsplit : name ++ [ascii '"', ascii ':', ascii ' '] =
        (name ++ [ascii '"', ascii ':']) ++ [ascii ' '] := by simp
    rw [hsplit, List.singleton_suffix_append_singleton_iff]
    decide
  have hlast : ¬ [ascii '\\'] <:+ lead := fun h => hlead (h.subset List.mem_cons_self)
  have hall := (confined_of_notMem hlead).quote hlast (hnamed.quote hend hstring)
  simpa [memberText] using hall

/-- **Items on lines of their own** keep apart what they keep apart each. -/
theorem Confined.separated {sep fin tail : Text} {ws : List Text} (htail : Confined parts tail)
    (hws : ∀ w ∈ ws, Confined parts (w ++ sep) ∧ Confined parts (w ++ fin)) :
    Confined parts (separated (sep ++ [ascii '\n']) (fin ++ [ascii '\n']) ws ++ tail) := by
  induction ws with
  | nil => exact htail
  | cons w ws ih =>
      rw [List.forall_mem_cons] at hws
      cases ws with
      | nil =>
          have hlast := hws.1.2.newline htail
          simpa only [separated_singleton, List.append_assoc, List.cons_append, List.nil_append]
            using hlast
      | cons w' ws =>
          have hmore := hws.1.1.newline (ih hws.2)
          simpa only [separated_cons_cons, List.append_assoc, List.cons_append, List.nil_append]
            using hmore

/-- In a list, what always has something larger is not there. -/
theorem not_of_larger {α : Type*} {l : List α} {p : α → Prop} (f : α → ℕ)
    (h : ∀ a ∈ l, p a → ∃ b ∈ l, p b ∧ f a < f b) : ∀ a ∈ l, ¬ p a := by
  have hbound : ∃ m, ∀ a ∈ l, f a ≤ m := by
    clear h
    induction l with
    | nil => exact ⟨0, fun a ha => absurd ha List.not_mem_nil⟩
    | cons a l ih =>
        obtain ⟨m, hm⟩ := ih
        refine ⟨max (f a) m, List.forall_mem_cons.mpr ⟨le_max_left _ _, fun b hb => ?_⟩⟩
        exact (hm b hb).trans (le_max_right _ _)
  obtain ⟨m, hm⟩ := hbound
  intro a
  induction hk : m - f a using Nat.strongRecOn generalizing a with
  | ind k ih =>
      intro ha hp
      obtain ⟨b, hb, hpb, hlt⟩ := h a ha hp
      have hle := hm b hb
      exact ih _ (by omega) b rfl hb hpb

/-- **Parts that all stand in a text that confines them** are plain. -/
theorem plain_of_stands (hconfined : Confined parts t) (hstands : ∀ s ∈ parts, Stands t s) :
    ∀ s ∈ parts, Plain s := by
  refine fun s hs => not_not.mp (not_of_larger (p := fun s => ¬ Plain s) weight ?_ s hs)
  intro s hs hplain
  obtain ⟨next, rest, hsuffix, hreads⟩ := hstands s hs
  obtain ⟨raw, rfl, hraw⟩ := hreads.raw
  obtain ⟨hmem, hlt⟩ := hraw.escapes.resolve_left fun h => hplain h.2
  have hpiece : raw <:+: t := by
    refine List.IsInfix.trans ?_ hsuffix.isInfix
    exact ⟨[ascii '"'], ascii '"' :: rest, by simp⟩
  obtain ⟨w, hw, hbackslash, hle⟩ := hconfined raw s hraw hmem hpiece
  refine ⟨w, hw, fun hw => ?_, by omega⟩
  exact (hw _ hbackslash).2.2 rfl

end Json
