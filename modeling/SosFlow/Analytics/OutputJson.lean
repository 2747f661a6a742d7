import SosFlow.Analytics.Output
import SosFlow.Lib.JsonRaw

/-!
# The output as JSON

A table is read back from its JSON text if its strings can stand between
quotes as they are, no name stands for two cells, and no row is without
columns, whose only member would have a comma behind it. These are all the
tables that are: a string with an escape in it would have to stand in a
longer one of the same text.
-/

namespace SosFlow

open Utf8 Separated

/-! ## The text of a table -/

/-- A column of a row. -/
def columnText (p : CString × CString) : List Byte :=
  Json.memberText (text "\t\t") p.1.bytes [] p.2.bytes

/-- The columns of a row. -/
def columnsText (names row : List CString) : List Byte :=
  separated (ascii ',' :: text "\n") (text "\n") ((names.zip row).map columnText)

/-- The number of a row. -/
def numberText (i : ℕ) : List Byte :=
  Json.memberText (text "\n\t\t") (text "result_row") [] (intStr i).bytes

/-- A row. -/
def rowText (names : List CString) (i : ℕ) (row : List CString) : List Byte :=
  text "\t" ++ ascii '\x7b' :: (numberText i ++
    ascii ',' :: (text "\n" ++ (columnsText names row ++ (text "\t" ++ [ascii '\x7d']))))

/-- The rows. -/
def rowsText (names : List CString) (rows : List (List CString)) : List Byte :=
  separated (ascii ',' :: text "\n") (text "\n") (rows.mapIdx (rowText names))

/-- What is behind the name of the rows. -/
def arrayText (names : List CString) (rows : List (List CString)) : List Byte :=
  text "\n " ++ ascii '[' :: (text "\n" ++ (rowsText names rows ++
    (text " " ++ ascii ']' :: (text "\n" ++ ascii '\x7d' :: text "\n\n\n"))))

/-- The member with the rows. -/
def dataText (names : List CString) (rows : List (List CString)) : List Byte :=
  text "\n " ++ ascii '"' :: (text "data" ++ ascii '"' ::
    (text "       " ++ ascii ':' :: arrayText names rows))

/-- A line in front of the rows: a name, white space, and a string. -/
structure HeadLine where
  name : List Byte
  gap : List Byte
  value : List Byte

/-- The line as it is printed. -/
def lineText (l : HeadLine) : List Byte :=
  Json.memberText (text "\n ") l.name l.gap l.value ++ [ascii ',']

/-- **The text of a table.** -/
def documentText (head : List HeadLine) (names : List CString) (rows : List (List CString)) :
    List Byte :=
  ascii '\x7b' :: (head.flatMap lineText ++ dataText names rows)

variable {r : ResultsObject} {title : CString} {names : List CString} {rows : List (List CString)}

/-- The lines in front of the rows of a table. -/
def outputHead (r : ResultsObject) (title : CString) (timeNow : Double) : List HeadLine :=
  [⟨text "title", text "      ", title.bytes⟩,
    ⟨text "time_stamp", text " ", fixedStr 6 timeNow⟩,
    ⟨text "exec_duration", text " ", fixedStr 12 r.execDuration⟩,
    ⟨text "col_count", text "  ", (intStr r.colCount).bytes⟩,
    ⟨text "row_count", text "  ", (intStr r.rowCount).bytes⟩]

theorem jsonRow_eq {row : ℕ} {cells : List CString}
    (hnames : readAll r.colNames r.colCount = some names)
    (hcells : readAll (r.data row) r.colCount = some cells) :
    r.jsonRow row = some (rowText names row cells ++
      if (row : ℤ) < r.rowCount - 1 then text ",\n" else text "\n") := by
  obtain ⟨hlen, hname⟩ := readAll_eq_some.mp hnames
  obtain ⟨hlen', hcell⟩ := readAll_eq_some.mp hcells
  have hcolumns : printed r.colCount (r.jsonColumn row) = some (columnsText names cells) := by
    refine printed_eq_separated (by simp [hlen, hlen']) fun i hi => ?_
    have hi : i < r.colCount := by simpa [hlen, hlen'] using hi
    have hlast : (if (i : ℤ) < r.colCount - 1 then text ",\n" else text "\n") =
        if i + 1 < r.colCount then ascii ',' :: text "\n" else text "\n" := by
      split_ifs <;> first | rfl | omega
    rw [ResultsObject.jsonColumn, hname i hi, hcell i hi, List.getElem?_eq_getElem (by omega),
      List.getElem?_eq_getElem (by omega), hlast, List.getElem_map, List.getElem_zip, columnText,
      Json.memberText]
    simp [text]
  rw [ResultsObject.jsonRow, hcolumns, rowText, numberText, Json.memberText]
  simp [text]

/-- **What is printed of a table** as JSON. -/
theorem jsonText_eq (timeNow : Double) (hnames : readAll r.colNames r.colCount = some names)
    (hrows : readAll (fun row => readAll (r.data row) r.colCount) r.rowCount = some rows) :
    r.jsonText title timeNow = some (documentText (outputHead r title timeNow) names rows) := by
  obtain ⟨hlen, hrow⟩ := readAll_eq_some.mp hrows
  have hprinted : printed r.rowCount r.jsonRow = some (rowsText names rows) := by
    refine printed_eq_separated (by rw [List.length_mapIdx, hlen]) fun i hi => ?_
    have hi : i < rows.length := by simpa using hi
    have hcells := (hrow i (by omega)).trans (List.getElem?_eq_getElem hi)
    have hlast : (if (i : ℤ) < r.rowCount - 1 then text ",\n" else text "\n") =
        if i + 1 < r.rowCount then ascii ',' :: text "\n" else text "\n" := by
      split_ifs <;> first | rfl | omega
    rw [jsonRow_eq hnames hcells, hlast, List.getElem_mapIdx]
  rw [ResultsObject.jsonText, hprinted]
  simp [text, documentText, lineText, Json.memberText, dataText, arrayText, outputHead]

/-! ## What is read of it -/

/-- **An object gives a row**: under each name the cell, and nothing else. -/
def GivesRow (names : List CString) (v : Json.Value) (row : List CString) : Prop :=
  ∃ ms, v = .object ms ∧ ∀ p ∈ names.zip row, Json.Gives ms p.1.bytes (.string p.2.bytes)

/-- **The table is read back from the text**: it is a JSON text, whose `data` are objects
that give the rows. -/
def JsonReadsBack (out : List Byte) (names : List CString) (rows : List (List CString)) : Prop :=
  ∃ ms vs, Json.Document out (.object ms) ∧ Json.Gives ms (text "data") (.array vs) ∧
    List.Forall₂ (GivesRow names) vs rows

/-- **No name stands for two cells** of a row, nor for the number of the row and a cell. -/
def Unambiguous (names : List CString) (rows : List (List CString)) : Prop :=
  ∀ (i : ℕ) row, rows[i]? = some row → ∀ p ∈ names.zip row,
    (∀ q ∈ names.zip row, q.1 = p.1 → q.2 = p.2) ∧ (p.1 = literal "result_row" → p.2 = intStr i)

/-- The string can stand in a JSON text as it is. -/
def JsonPlain (s : List Byte) : Prop := IsUtf8 s ∧ Json.Plain s

/-- **Tables that can be** read back from JSON. -/
def JsonSafe (names : List CString) (rows : List (List CString)) : Prop :=
  rows = [] ∨ names ≠ [] ∧ (∀ row ∈ names :: rows, ∀ s ∈ row, JsonPlain s.bytes) ∧
    Unambiguous names rows

/-- The members of a row. -/
def rowMembers (names : List CString) (i : ℕ) (row : List CString) :
    List (Json.Text × Json.Value) :=
  (text "result_row", .string (intStr i).bytes) ::
    (names.zip row).map fun p => (p.1.bytes, .string p.2.bytes)

/-- The value of a row. -/
def rowValue (names : List CString) (i : ℕ) (row : List CString) : Json.Value :=
  .object (rowMembers names i row)

/-- The member of a line. -/
def lineMember (l : HeadLine) : Json.Text × Json.Value := (l.name, .string l.value)

/-- A line that can be read, and is not the data. -/
structure HeadLine.Plain (l : HeadLine) : Prop where
  name : JsonPlain l.name
  gap : ∀ x ∈ l.gap, Json.space x
  value : JsonPlain l.value
  ne_data : l.name ≠ text "data"

/-- An octet that stands for itself, like those of names and numbers. -/
def Ordinary (x : Byte) : Prop := 35 ≤ x.toNat ∧ x.toNat < 128 ∧ x ≠ ascii '\\'

instance : DecidablePred Ordinary := fun x => by
  unfold Ordinary
  infer_instance

theorem jsonPlain_of_ordinary {s : List Byte} (h : ∀ x ∈ s, Ordinary x) : JsonPlain s := by
  refine ⟨isUtf8_low fun x hx => (h x hx).2.1, fun x hx => ⟨?_, ?_, (h x hx).2.2⟩⟩
  · exact (by decide : 32 ≤ 35).trans (h x hx).1
  · rintro rfl
    exact absurd (h _ hx).1 (by decide)

theorem ordinary_digit {x : Byte} (h : 48 ≤ x.toNat ∧ x.toNat ≤ 57) : Ordinary x := by
  refine ⟨by omega, by omega, ?_⟩
  rintro rfl
  exact absurd h (by decide)

theorem jsonPlain_intStr (n : ℕ) : JsonPlain (intStr n).bytes :=
  jsonPlain_of_ordinary fun x hx => ordinary_digit (intStr_digit n x hx)

/-- **A number** can stand in a JSON text. -/
theorem jsonPlain_fixedStr (places : ℕ) (d : Double) : JsonPlain (fixedStr places d) := by
  have hsign : ∀ x ∈ text "-", Ordinary x := by simp [text]; decide
  have hdot : ∀ x ∈ text ".", Ordinary x := by simp [text]; decide
  have hinf : ∀ x ∈ text "inf", Ordinary x := by simp [text]; decide
  have hnan : ∀ x ∈ text "nan", Ordinary x := by simp [text]; decide
  refine jsonPlain_of_ordinary fun x hx => ?_
  rcases List.mem_append.mp hx with hx | hx
  · split at hx
    case isTrue => exact hsign x hx
    case isFalse => cases hx
  · split at hx
    case h_1 =>
      rcases List.mem_append.mp hx with hx | hx
      · rcases List.mem_append.mp hx with hx | hx
        · exact ordinary_digit (intStr_digit _ x hx)
        · exact hdot x hx
      · obtain ⟨i, -, rfl⟩ := List.mem_map.mp hx
        refine ordinary_digit ?_
        rw [BitVec.toNat_ofNat]
        omega
    case h_2 => exact hinf x hx
    case h_3 => exact hnan x hx

/-- The name of a line, and the white space behind it. -/
theorem plain_line {name gap : String} {value : List Byte}
    (hname : ∀ c ∈ name.toList, Ordinary (ascii c)) (hgap : ∀ c ∈ gap.toList, c = ' ')
    (hdata : text name ≠ text "data") (hvalue : JsonPlain value) :
    HeadLine.Plain ⟨text name, text gap, value⟩ where
  name := jsonPlain_of_ordinary (List.forall_mem_map.mpr hname)
  gap := List.forall_mem_map.mpr fun c hc => hgap c hc ▸ rfl
  value := hvalue
  ne_data := hdata

/-- **The lines in front of the rows** can be read if the title can. -/
theorem plain_outputHead (htitle : JsonPlain title.bytes) (timeNow : Double) :
    ∀ l ∈ outputHead r title timeNow, l.Plain := by
  simp only [outputHead, List.mem_cons, List.not_mem_nil, or_false]
  rintro l (rfl | rfl | rfl | rfl | rfl)
  · exact plain_line (by simp; decide) (by simp) (by simp [text]) htitle
  · exact plain_line (by simp; decide) (by simp) (by simp [text]) (jsonPlain_fixedStr _ _)
  · exact plain_line (by simp; decide) (by simp) (by simp [text]) (jsonPlain_fixedStr _ _)
  · exact plain_line (by simp; decide) (by simp) (by simp [text]) (jsonPlain_intStr _)
  · exact plain_line (by simp; decide) (by simp) (by simp [text]) (jsonPlain_intStr _)

/-! ## White space -/

theorem space_line : ∀ x ∈ text "\n", Json.space x := by simp [text, Json.space]

theorem space_tab : ∀ x ∈ text "\t", Json.space x := by simp [text, Json.space]

theorem space_blank : ∀ x ∈ text " ", Json.space x := by simp [text, Json.space]

theorem space_indent : ∀ x ∈ text "\n ", Json.space x := by simp [text, Json.space]

theorem space_number : ∀ x ∈ text "\n\t\t", Json.space x := by simp [text, Json.space]

theorem space_column : ∀ x ∈ text "\t\t", Json.space x := by simp [text, Json.space]

theorem space_data : ∀ x ∈ text "       ", Json.space x := by simp [text, Json.space]

/-- A line end and a tab in front of a brace. -/
theorem skip_line_tab {x : Byte} (hx : Json.space x = false) (inp : Json.Text) :
    Json.skip (text "\n" ++ (text "\t" ++ x :: inp)) = x :: inp :=
  (Json.skip_append space_line _).trans (Json.skip_token space_tab hx inp)

/-! ## Reading the head -/

/-- The lines are read, and what is behind them. -/
theorem reads_lines_iff {head : List HeadLine} (hhead : ∀ l ∈ head, l.Plain) {inp rest : Json.Text}
    {ms : List (Json.Text × Json.Value)} :
    Json.Reads (.members ms) (head.flatMap lineText ++ inp) rest ↔
      ∃ ms', ms = head.map lineMember ++ ms' ∧ Json.Reads (.members ms') inp rest := by
  induction head generalizing ms with
  | nil => simp
  | cons l head ih =>
      rw [List.forall_mem_cons] at hhead
      have hline := Json.reads_memberText space_indent hhead.1.name.2 hhead.1.gap hhead.1.value.2
        ([ascii ','] ++ (head.flatMap lineText ++ inp))
      rw [List.flatMap_cons, lineText, List.append_assoc, List.append_assoc,
        Json.reads_members_cons hline rfl]
      constructor
      · rintro ⟨ms, rfl, hms⟩
        obtain ⟨ms, rfl, hbehind⟩ := (ih hhead.2).mp hms
        exact ⟨ms, rfl, hbehind⟩
      · rintro ⟨ms, rfl, hms⟩
        exact ⟨_, rfl, (ih hhead.2).mpr ⟨ms, rfl, hms⟩⟩

/-- **The head is read**, and the data behind it. -/
theorem reads_document_iff {head : List HeadLine} (hhead : ∀ l ∈ head, l.Plain) {v : Json.Value}
    {rest : Json.Text} :
    Json.Reads (.value v) (documentText head names rows) rest ↔
      ∃ ms, v = .object (head.map lineMember ++ ms) ∧
        Json.Reads (.members ms) (dataText names rows) rest := by
  have hquote : ∃ next,
      Json.skip (head.flatMap lineText ++ dataText names rows) = ascii '"' :: next := by
    cases head with
    | nil => exact ⟨_, Json.skip_token space_indent rfl _⟩
    | cons l head =>
        rw [List.flatMap_cons, lineText, Json.memberText]
        simp only [List.append_assoc, List.cons_append]
        exact ⟨_, Json.skip_token space_indent rfl _⟩
  obtain ⟨next, hquote⟩ := hquote
  rw [documentText, Json.reads_object_iff rfl hquote]
  constructor
  · rintro ⟨ms, rfl, hms⟩
    obtain ⟨ms, rfl, hdata⟩ := (reads_lines_iff hhead).mp hms
    exact ⟨ms, rfl, hdata⟩
  · rintro ⟨ms, rfl, hms⟩
    exact ⟨_, rfl, (reads_lines_iff hhead).mpr ⟨ms, rfl, hms⟩⟩

/-- **What the data are read as**: the array behind their name. -/
theorem reads_data_iff {name : Json.Text} {v : Json.Value} {rest : Json.Text} :
    Json.Reads (.member name v) (dataText names rows) rest ↔
      name = text "data" ∧ Json.Reads (.value v) (arrayText names rows) rest := by
  have hname : Json.Plain (text "data") := by
    simp [text, Json.Plain]
    decide
  exact Json.reads_member_iff (Json.skip_token space_indent rfl _) (Json.readsString_plain hname _)
    (Json.skip_token space_data rfl _)

/-! ## Tables that are read back -/

/-- The number of a row is read. -/
theorem reads_number (i : ℕ) (rest : Json.Text) :
    Json.Reads (.member (text "result_row") (.string (intStr i).bytes))
      (numberText i ++ rest) rest := by
  have hname : ∀ x ∈ text "result_row", Ordinary x := by
    simp [text]
    decide
  exact Json.reads_memberText space_number (jsonPlain_of_ordinary hname).2 (List.forall_mem_nil _)
    (jsonPlain_intStr i).2 rest

/-- The strings of a row can stand in a JSON text. -/
def PlainRow (names row : List CString) : Prop :=
  ∀ p ∈ names.zip row, JsonPlain p.1.bytes ∧ JsonPlain p.2.bytes

/-- **A row is read.** -/
theorem reads_rowText {i : ℕ} {row : List CString} (hne : names.zip row ≠ [])
    (hplain : PlainRow names row) (rest : Json.Text) :
    Json.Reads (.value (rowValue names i row)) (rowText names i row ++ rest) rest := by
  let ws := (names.zip row).map fun p => (columnText p, p.1.bytes, Json.Value.string p.2.bytes)
  have hws : ∀ p ∈ ws, ∀ rest, Json.Reads (.member p.2.1 p.2.2) (p.1 ++ rest) rest := by
    intro p hp rest
    obtain ⟨q, hq, rfl⟩ := List.mem_map.mp hp
    obtain ⟨hname, hcell⟩ := hplain q hq
    exact Json.reads_memberText space_column hname.2 (List.forall_mem_nil _) hcell.2 rest
  have hcolumns := Json.reads_members_separated (by simpa [ws] using hne) hws
    (Json.skip_append space_line) (skip_line_tab rfl rest)
  rw [List.map_map, List.map_map] at hcolumns
  rw [rowText]
  simp only [List.append_assoc, List.cons_append, List.nil_append]
  exact .object (Json.skip_token space_tab rfl _)
    (.member (reads_number i _) rfl (hcolumns.of_skip (Json.skip_append space_line _).symm))

/-- The rows are read as they are. -/
def dataValue (names : List CString) (rows : List (List CString)) : Json.Value :=
  .array (rows.mapIdx (rowValue names))

/-- **The data are read**, as the last member. -/
theorem reads_dataText (hne : rows = [] ∨ names ≠ [])
    (hwidth : ∀ row ∈ rows, row.length = names.length) (hplain : ∀ row ∈ rows, PlainRow names row) :
    Json.Reads (.members [(text "data", dataValue names rows)]) (dataText names rows)
      (text "\n\n\n") := by
  have hclose : Json.skip (text "\n" ++ (text " " ++ ascii ']' ::
      (text "\n" ++ ascii '\x7d' :: text "\n\n\n"))) =
        ascii ']' :: (text "\n" ++ ascii '\x7d' :: text "\n\n\n") := by
    rw [Json.skip_append space_line, Json.skip_token space_blank rfl]
  have hvalue : Json.Reads (.value (dataValue names rows)) (arrayText names rows)
      (text "\n" ++ ascii '\x7d' :: text "\n\n\n") := by
    by_cases hrows : rows = []
    · subst hrows
      exact .noElements (Json.skip_token space_indent rfl _) hclose
    · let ws := rows.mapIdx fun i row => (rowText names i row, rowValue names i row)
      have hws : ∀ p ∈ ws, ∀ rest, Json.Reads (.value p.2) (p.1 ++ rest) rest := by
        intro p hp rest
        obtain ⟨i, hi, rfl⟩ := List.mem_mapIdx.mp hp
        have hrow := List.getElem_mem hi
        refine reads_rowText ?_ (hplain _ hrow) rest
        rw [Ne, List.zip_eq_nil_iff, ← List.length_eq_zero_iff (l := rows[i]), hwidth _ hrow,
          List.length_eq_zero_iff, or_self]
        exact hne.resolve_left hrows
      have helements := Json.reads_elements_separated (by simpa [ws] using hrows) hws
        (Json.skip_append space_line) hclose
      simp only [ws, map_mapIdx] at helements
      exact .array (Json.skip_token space_indent rfl _)
        (helements.of_skip (Json.skip_append space_line _).symm)
  exact .lastMember (reads_data_iff.mpr ⟨rfl, hvalue⟩) (Json.skip_token space_line rfl _)

/-- The members of a table. -/
def tableMembers (head : List HeadLine) (names : List CString) (rows : List (List CString)) :
    List (Json.Text × Json.Value) :=
  head.map lineMember ++ [(text "data", dataValue names rows)]

/-- **The text of a table is read.** -/
theorem reads_documentText {head : List HeadLine} (hhead : ∀ l ∈ head, l.Plain)
    (hne : rows = [] ∨ names ≠ []) (hwidth : ∀ row ∈ rows, row.length = names.length)
    (hplain : ∀ row ∈ rows, PlainRow names row) :
    Json.Reads (.value (.object (tableMembers head names rows))) (documentText head names rows)
      (text "\n\n\n") :=
  (reads_document_iff hhead).mpr ⟨_, rfl, reads_dataText hne hwidth hplain⟩

/-- The data are the only member of their name. -/
theorem gives_data {head : List HeadLine} (hhead : ∀ l ∈ head, l.Plain) :
    Json.Gives (tableMembers head names rows) (text "data") (dataValue names rows) := by
  refine ⟨List.mem_append_right _ List.mem_cons_self, fun v hv => ?_⟩
  rcases List.mem_append.mp hv with hv | hv
  · obtain ⟨l, hl, heq⟩ := List.mem_map.mp hv
    exact absurd (Prod.mk.inj heq).1 (hhead l hl).ne_data
  · exact (Prod.mk.inj (List.mem_singleton.mp hv)).2

/-- A row read as it is gives its cells, if no name stands for two. -/
theorem givesRow_rowValue {i : ℕ} {row : List CString} :
    GivesRow names (rowValue names i row) row ↔ ∀ p ∈ names.zip row,
      (∀ q ∈ names.zip row, q.1 = p.1 → q.2 = p.2) ∧
        (p.1 = literal "result_row" → p.2 = intStr i) := by
  have hnumber : (literal "result_row").bytes = text "result_row" := rfl
  have hmem : ∀ {name v}, (name, v) ∈ rowMembers names i row ↔
      (name = text "result_row" ∧ v = .string (intStr i).bytes) ∨
        ∃ q ∈ names.zip row, name = q.1.bytes ∧ v = .string q.2.bytes := by
    intro name v
    rw [rowMembers, List.mem_cons, List.mem_map, Prod.mk.injEq]
    refine or_congr_right (exists_congr fun q => and_congr_right fun _ => ?_)
    rw [Prod.mk.injEq, eq_comm, eq_comm (a := v)]
  constructor
  · rintro ⟨ms, hms, hgives⟩ p hp
    obtain rfl := Json.Value.object.inj hms
    refine ⟨fun q hq hname => ?_, fun hname => ?_⟩
    · have heq := (hgives p hp).2 _ (hmem.mpr (.inr ⟨q, hq, congrArg _ hname.symm, rfl⟩))
      exact CString.ext (Json.Value.string.inj heq)
    · have heq := (hgives p hp).2 _ (hmem.mpr (.inl ⟨hname ▸ hnumber, rfl⟩))
      exact CString.ext (Json.Value.string.inj heq).symm
  · intro h
    refine ⟨_, rfl, fun p hp => ⟨hmem.mpr (.inr ⟨p, hp, rfl, rfl⟩), fun v' hv' => ?_⟩⟩
    rcases hmem.mp hv' with ⟨hname, rfl⟩ | ⟨q, hq, hname, rfl⟩
    · rw [(h p hp).2 (CString.ext (hname.trans hnumber.symm))]
    · rw [(h p hp).1 q hq (CString.ext hname.symm)]

theorem givesRows_iff :
    List.Forall₂ (GivesRow names) (rows.mapIdx (rowValue names)) rows ↔ Unambiguous names rows := by
  rw [List.forall₂_iff_get]
  simp only [List.length_mapIdx, true_and, List.get_eq_getElem, List.getElem_mapIdx,
    givesRow_rowValue]
  constructor
  · intro h i row hrow
    obtain ⟨hi, rfl⟩ := List.getElem?_eq_some_iff.mp hrow
    exact h i hi hi
  · intro h i hi _
    exact h i _ (List.getElem?_eq_getElem hi)

/-- White space is UTF-8. -/
theorem isUtf8_space {gap : Json.Text} (h : ∀ x ∈ gap, Json.space x) : IsUtf8 gap := by
  have hlow : ∀ x : Byte, Json.space x → x.toNat < 128 := by decide
  exact isUtf8_low fun x hx => hlow x (h x hx)

theorem isUtf8_columnsText {row : List CString} (hplain : PlainRow names row) :
    IsUtf8 (columnsText names row) := by
  refine separated_induction isUtf8_nil (fun _ _ => IsUtf8.append)
    (.cons (by decide) (isUtf8_space space_line)) (isUtf8_space space_line)
    (List.forall_mem_map.mpr fun p hp => ?_)
  obtain ⟨hname, hcell⟩ := hplain p hp
  exact Json.isUtf8_memberText (isUtf8_space space_column) hname.1 isUtf8_nil hcell.1

theorem isUtf8_rowText {i : ℕ} {row : List CString} (hplain : PlainRow names row) :
    IsUtf8 (rowText names i row) := by
  have hnumber : IsUtf8 (numberText i) :=
    Json.isUtf8_memberText (isUtf8_space space_number) (isUtf8_text (by simp)) isUtf8_nil
      (jsonPlain_intStr i).1
  have hclose : IsUtf8 (text "\t" ++ [ascii '\x7d']) :=
    (isUtf8_space space_tab).append (.cons (by decide) isUtf8_nil)
  have hcolumns := (isUtf8_columnsText hplain).append hclose
  have hbehind : IsUtf8 (ascii ',' :: (text "\n" ++ (columnsText names row ++
      (text "\t" ++ [ascii '\x7d'])))) := .cons (by decide) ((isUtf8_space space_line).append hcolumns)
  exact (isUtf8_space space_tab).append (.cons (by decide) (hnumber.append hbehind))

theorem isUtf8_arrayText (hplain : ∀ row ∈ rows, PlainRow names row) :
    IsUtf8 (arrayText names rows) := by
  have hrows : IsUtf8 (rowsText names rows) := by
    refine separated_induction isUtf8_nil (fun _ _ => IsUtf8.append)
      (.cons (by decide) (isUtf8_space space_line)) (isUtf8_space space_line) fun w hw => ?_
    obtain ⟨i, hi, rfl⟩ := List.mem_mapIdx.mp hw
    exact isUtf8_rowText (hplain _ (List.getElem_mem hi))
  have hclose : IsUtf8 (text " " ++ ascii ']' :: (text "\n" ++ ascii '\x7d' :: text "\n\n\n")) :=
    (isUtf8_space space_blank).append (.cons (by decide) ((isUtf8_space space_line).append
      (.cons (by decide) (isUtf8_text (by simp)))))
  have hbehind := (isUtf8_space space_line).append (hrows.append hclose)
  exact (isUtf8_space space_indent).append (.cons (by decide) hbehind)

/-- **The text of a table** of such strings is UTF-8. -/
theorem isUtf8_documentText {head : List HeadLine} (hhead : ∀ l ∈ head, l.Plain)
    (hplain : ∀ row ∈ rows, PlainRow names row) : IsUtf8 (documentText head names rows) := by
  have hlines : IsUtf8 (head.flatMap lineText) := by
    refine isUtf8_flatten (List.forall_mem_map.mpr fun l hl => ?_)
    have hline := Json.isUtf8_memberText (isUtf8_space space_indent) (hhead l hl).name.1
      (isUtf8_space (hhead l hl).gap) (hhead l hl).value.1
    exact hline.append (.cons (by decide) isUtf8_nil)
  have hcolon : IsUtf8 (text "       " ++ ascii ':' :: arrayText names rows) :=
    (isUtf8_space space_data).append (.cons (by decide) (isUtf8_arrayText hplain))
  have hname : IsUtf8 (text "data" ++ ascii '"' ::
      (text "       " ++ ascii ':' :: arrayText names rows)) :=
    (isUtf8_text (by simp)).append (.cons (by decide) hcolon)
  have hdata : IsUtf8 (dataText names rows) :=
    (isUtf8_space space_indent).append (.cons (by decide) hname)
  exact .cons (by decide) (hlines.append hdata)

/-! ## Tables that are not -/

/-- A row begins with a brace, and its number is behind it. -/
theorem skip_rowText (i : ℕ) (row : List CString) (inp : Json.Text) :
    Json.skip (text "\n" ++ (rowText names i row ++ inp)) = ascii '\x7b' :: (numberText i ++
      ascii ',' :: (text "\n" ++ (columnsText names row ++ (text "\t" ++ ascii '\x7d' :: inp)))) := by
  rw [rowText]
  simp only [List.append_assoc, List.cons_append, List.nil_append]
  exact skip_line_tab rfl _

/-- A row without columns is not read: the comma behind its number is the last thing in it. -/
theorem not_reads_rowText {i : ℕ} {v : Json.Value} {tail rest : Json.Text} :
    ¬ Json.Reads (.value v) (text "\n" ++ (rowText [] i [] ++ tail)) rest := by
  intro hread
  obtain ⟨ms, -, hms⟩ := (Json.reads_object_iff (skip_rowText i [] tail)
    (Json.skip_token space_number rfl _)).mp hread
  obtain ⟨ms, -, hrest⟩ := (Json.reads_members_cons (reads_number i _) rfl).mp hms
  exact Json.not_reads_members (skip_line_tab rfl tail) (by decide) hrest

/-- **Without columns** a table with rows is not read. -/
theorem not_reads_without_columns {head : List HeadLine} (hhead : ∀ l ∈ head, l.Plain)
    (hne : rows ≠ []) (hnil : ∀ row ∈ rows, row = []) {v : Json.Value} {rest : Json.Text} :
    ¬ Json.Reads (.value v) (documentText head [] rows) rest := by
  intro hread
  obtain ⟨ms, -, hms⟩ := (reads_document_iff hhead).mp hread
  obtain ⟨name, v, mid, hm⟩ := hms.members_member
  obtain ⟨-, hv⟩ := reads_data_iff.mp hm
  obtain ⟨tail, hrows⟩ : ∃ tail, rowsText [] rows = rowText [] 0 [] ++ tail := by
    obtain ⟨row, rows, rfl⟩ := List.exists_cons_of_ne_nil hne
    rw [rowsText, List.mapIdx_cons, hnil row List.mem_cons_self]
    exact separated_cons _ _ _ _
  rw [arrayText, hrows, List.append_assoc] at hv
  obtain ⟨vs, -, hvs⟩ := (Json.reads_array_iff (Json.skip_token space_indent rfl _)
    (skip_rowText 0 [] _) (by decide)).mp hv
  obtain ⟨v, mid, hv⟩ := hvs.elements_value
  exact not_reads_rowText hv

/-- The lines in front of the rows have no backslash. -/
theorem backslash_notMem_lines {head : List HeadLine} (hhead : ∀ l ∈ head, l.Plain) :
    ascii '\\' ∉ head.flatMap lineText := by
  intro h
  obtain ⟨l, hl, h⟩ := List.mem_flatMap.mp h
  have hplain := hhead l hl
  have hname : ascii '\\' ∉ l.name := fun h => (hplain.name.2 _ h).2.2 rfl
  have hgap : ascii '\\' ∉ l.gap := fun h => absurd (hplain.gap _ h) (by decide)
  have hvalue : ascii '\\' ∉ l.value := fun h => (hplain.value.2 _ h).2.2 rfl
  simp only [lineText, Json.memberText, List.mem_append, List.mem_cons, hname, hgap, hvalue] at h
  simp [text] at h
  revert h
  decide

/-- The names and the cells of a table. -/
def partsOf (names : List CString) (rows : List (List CString)) : List (List Byte) :=
  textsOf (names ++ rows.flatten)

theorem mem_partsOf {row : List CString} {s : CString} (hrow : row ∈ names :: rows) (hs : s ∈ row) :
    s.bytes ∈ partsOf names rows := by
  refine List.mem_map_of_mem (List.mem_append.mpr ?_)
  rcases List.mem_cons.mp hrow with rfl | hrow
  · exact .inl hs
  · exact .inr (List.mem_flatten.mpr ⟨row, hrow, hs⟩)

/-- The columns keep them apart, and so does what is behind them. -/
theorem confined_columnsText {row : List CString} (hrow : row ∈ rows) {tail : Json.Text}
    (htail : ascii '\\' ∉ tail) :
    Json.Confined (partsOf names rows) (columnsText names row ++ tail) := by
  have hline : text "\n" = [ascii '\n'] := by simp [text]
  have hlead : ascii '\\' ∉ text "\t\t" := fun h => absurd (space_column _ h) (by decide)
  have hcolumn : ∀ w ∈ (names.zip row).map columnText, ∀ sep, (∀ x ∈ sep, Json.silent x) →
      Json.Confined (partsOf names rows) (w ++ sep) := by
    intro w hw sep hsep
    obtain ⟨p, hp, rfl⟩ := List.mem_map.mp hw
    have hmem := List.of_mem_zip hp
    exact Json.confined_memberText hlead (mem_partsOf List.mem_cons_self hmem.1)
      (mem_partsOf (List.mem_cons_of_mem _ hrow) hmem.2) hsep
  have hall : Json.Confined (partsOf names rows) (separated ([ascii ','] ++ [ascii '\n'])
      ([] ++ [ascii '\n']) ((names.zip row).map columnText) ++ tail) :=
    Json.Confined.separated (Json.confined_of_notMem htail) fun w hw =>
      ⟨hcolumn w hw _ (by decide), hcolumn w hw _ (List.forall_mem_nil _)⟩
  rwa [columnsText, hline]

theorem confined_rowText {i : ℕ} {row : List CString} (hrow : row ∈ rows) {sep : Json.Text}
    (hsep : ascii '\\' ∉ sep) : Json.Confined (partsOf names rows) (rowText names i row ++ sep) := by
  have hnumber : ascii '\\' ∉ (intStr i).bytes := fun h => ((jsonPlain_intStr i).2 _ h).2.2 rfl
  have hbegin : ascii '\\' ∉ text "\t" ++ ascii '\x7b' :: (numberText i ++ [ascii ',']) := by
    simp only [numberText, Json.memberText, List.mem_append, List.mem_cons, hnumber]
    simp [text]
    decide
  have hend : ascii '\\' ∉ text "\t" ++ ascii '\x7d' :: sep := by
    simp [text, hsep]
    decide
  have hcolumns : Json.Confined (partsOf names rows) (columnsText names row ++ _) :=
    confined_columnsText hrow hend
  have hall := (Json.confined_of_notMem hbegin).newline hcolumns
  simpa [rowText, text] using hall

/-- **The text of a table** keeps its names and its cells apart. -/
theorem confined_documentText {head : List HeadLine} (hhead : ∀ l ∈ head, l.Plain) :
    Json.Confined (partsOf names rows) (documentText head names rows) := by
  have hrow : ∀ w ∈ rows.mapIdx (rowText names), ∀ sep, ascii '\\' ∉ sep →
      Json.Confined (partsOf names rows) (w ++ sep) := by
    intro w hw sep hsep
    obtain ⟨i, hi, rfl⟩ := List.mem_mapIdx.mp hw
    exact confined_rowText (List.getElem_mem hi) hsep
  have hbegin : ascii '\\' ∉
      ascii '\x7b' :: (head.flatMap lineText ++ text "\n \"data\"       :\n [") := by
    simp only [List.mem_cons, List.mem_append, backslash_notMem_lines hhead]
    simp [text]
    decide
  have hend : ascii '\\' ∉ text " ]\n\x7d\n\n\n" := by
    simp [text]
    decide
  have hrows : Json.Confined (partsOf names rows) (separated ([ascii ','] ++ [ascii '\n'])
      ([] ++ [ascii '\n']) (rows.mapIdx (rowText names)) ++ text " ]\n\x7d\n\n\n") :=
    Json.Confined.separated (Json.confined_of_notMem hend) fun w hw =>
      ⟨hrow w hw _ (by decide), hrow w hw _ List.not_mem_nil⟩
  have hall := (Json.confined_of_notMem hbegin).newline hrows
  simpa [documentText, dataText, arrayText, rowsText, text] using hall

/-- Each column is a piece of the text. -/
theorem piece_columnText {head : List HeadLine} {row : List CString} (hrow : row ∈ rows)
    {p : CString × CString} (hp : p ∈ names.zip row) :
    columnText p <:+: documentText head names rows := by
  obtain ⟨i, hi, rfl⟩ := List.mem_iff_getElem.mp hrow
  have hcolumn : columnText p <:+: columnsText names rows[i] :=
    infix_separated (List.mem_map_of_mem hp)
  have hrow : columnsText names rows[i] <:+: rowText names i rows[i] := by
    refine ⟨text "\t" ++ ascii '\x7b' :: (numberText i ++ ascii ',' :: text "\n"),
      text "\t" ++ [ascii '\x7d'], ?_⟩
    simp only [rowText, List.append_assoc, List.cons_append]
  have hrows : rowText names i rows[i] <:+: rowsText names rows :=
    infix_separated (List.mem_mapIdx.mpr ⟨i, hi, rfl⟩)
  have harray : rowsText names rows <:+: arrayText names rows := by
    refine ⟨text "\n " ++ ascii '[' :: text "\n", text " " ++ ascii ']' ::
      (text "\n" ++ ascii '\x7d' :: text "\n\n\n"), ?_⟩
    simp only [arrayText, List.append_assoc, List.cons_append]
  have hdata : arrayText names rows <:+: documentText head names rows := by
    refine ⟨ascii '\x7b' :: (head.flatMap lineText ++ (text "\n " ++ ascii '"' :: (text "data" ++
      ascii '"' :: (text "       " ++ [ascii ':'])))), [], ?_⟩
    simp only [documentText, dataText, List.append_assoc, List.cons_append, List.append_nil,
      List.nil_append]
  exact hcolumn.trans (hrow.trans (hrows.trans (harray.trans hdata)))

/-- What holds of the columns of every row holds of the names and the cells. -/
theorem forall_strings {P : CString → Prop} (hne : rows ≠ [])
    (hwidth : ∀ row ∈ rows, row.length = names.length)
    (h : ∀ row ∈ rows, ∀ p ∈ names.zip row, P p.1 ∧ P p.2) :
    ∀ row ∈ names :: rows, ∀ s ∈ row, P s := by
  rw [List.forall_mem_cons]
  constructor
  · intro s hs
    obtain ⟨row, hrow⟩ := List.exists_mem_of_ne_nil rows hne
    rw [← List.map_fst_zip (hwidth row hrow).ge] at hs
    obtain ⟨p, hp, rfl⟩ := List.mem_map.mp hs
    exact (h row hrow p hp).1
  · intro row hrow s hs
    rw [← List.map_snd_zip (hwidth row hrow).le] at hs
    obtain ⟨p, hp, rfl⟩ := List.mem_map.mp hs
    exact (h row hrow p hp).2

/-- **What is read back stands in the text.** -/
theorem stands_of_gives {out rest : Json.Text} {ms : List (Json.Text × Json.Value)}
    {vs : List Json.Value} (hread : Json.Reads (.value (.object ms)) out rest)
    (hdata : (text "data", .array vs) ∈ ms) (hrows : List.Forall₂ (GivesRow names) vs rows) :
    ∀ row ∈ rows, ∀ p ∈ names.zip row,
      Json.Stands out p.1.bytes ∧ Json.Stands out p.2.bytes := by
  intro row hrow p hp
  obtain ⟨i, hi, rfl⟩ := List.mem_iff_getElem.mp hrow
  obtain ⟨hlen, hget⟩ := List.forall₂_iff_get.mp hrows
  have hv : vs.get ⟨i, hlen ▸ hi⟩ ∈ vs := List.get_mem _ _
  obtain ⟨cells, hcells, hgives⟩ := hget i (hlen ▸ hi) hi
  obtain ⟨-, inp, _, hinp, harray⟩ := hread.of_mem_object hdata
  obtain ⟨inp', _, hinp', hobject⟩ := harray.of_mem_array hv
  rw [hcells] at hobject
  obtain ⟨hname, hcell⟩ := hobject.stands_of_mem (hgives p hp).1
  exact ⟨hname.mono (hinp'.trans hinp), hcell.mono (hinp'.trans hinp)⟩

/-- **What is read back is plain.** -/
theorem plainRow_of_readsBack {head : List HeadLine} (hhead : ∀ l ∈ head, l.Plain)
    (hwidth : ∀ row ∈ rows, row.length = names.length) (hne : rows ≠ [])
    (h : JsonReadsBack (documentText head names rows) names rows) :
    ∀ row ∈ rows, PlainRow names row := by
  obtain ⟨ms, vs, ⟨hutf8, rest, hread, -⟩, hdata, hrows⟩ := h
  have hstands := forall_strings (P := fun s => Json.Stands _ s.bytes) hne hwidth
    (stands_of_gives hread hdata.1 hrows)
  have hplain : ∀ s ∈ partsOf names rows, Json.Plain s := by
    refine Json.plain_of_stands (confined_documentText hhead) fun s hs => ?_
    obtain ⟨c, hc, rfl⟩ := List.mem_map.mp hs
    rcases List.mem_append.mp hc with hc | hc
    · exact hstands names List.mem_cons_self c hc
    · obtain ⟨row, hrow, hc⟩ := List.mem_flatten.mp hc
      exact hstands row (List.mem_cons_of_mem _ hrow) c hc
  intro row hrow p hp
  have hmem := List.of_mem_zip hp
  obtain ⟨hname, hcell⟩ := Json.isUtf8_of_memberText hutf8 (piece_columnText hrow hp)
  exact ⟨⟨hname, hplain _ (mem_partsOf List.mem_cons_self hmem.1)⟩,
    hcell, hplain _ (mem_partsOf (List.mem_cons_of_mem _ hrow) hmem.2)⟩

/-- **A table that is read back** is one that can be. -/
theorem jsonSafe_of_readsBack {head : List HeadLine} (hhead : ∀ l ∈ head, l.Plain)
    (hwidth : ∀ row ∈ rows, row.length = names.length)
    (h : JsonReadsBack (documentText head names rows) names rows) : JsonSafe names rows := by
  by_cases hne : rows = []
  · exact .inl hne
  have hplain := plainRow_of_readsBack hhead hwidth hne h
  obtain ⟨ms, vs, ⟨-, rest, hread, -⟩, hdata, hrows⟩ := h
  have hnames : names ≠ [] := by
    rintro rfl
    refine not_reads_without_columns hhead hne (fun row hrow => ?_) hread
    exact List.eq_nil_of_length_eq_zero (hwidth row hrow)
  refine .inr ⟨hnames, forall_strings (P := fun s => JsonPlain s.bytes) hne hwidth hplain, ?_⟩
  -- the text is read in one way, so the data are the rows as they are
  obtain ⟨hitem, -⟩ := hread.unique (reads_documentText hhead (.inr hnames) hwidth hplain) rfl
  cases hitem
  cases (gives_data hhead).2 _ hdata.1
  exact givesRows_iff.mp hrows

/-- **A table that can be** is read back. -/
theorem JsonSafe.readsBack {head : List HeadLine} (hhead : ∀ l ∈ head, l.Plain)
    (hwidth : ∀ row ∈ rows, row.length = names.length) (h : JsonSafe names rows) :
    JsonReadsBack (documentText head names rows) names rows := by
  have hplain : ∀ row ∈ rows, PlainRow names row := by
    intro row hrow p hp
    have hmem := List.of_mem_zip hp
    obtain ⟨-, hplain, -⟩ := h.resolve_left (List.ne_nil_of_mem hrow)
    exact ⟨hplain names List.mem_cons_self _ hmem.1,
      hplain row (List.mem_cons_of_mem _ hrow) _ hmem.2⟩
  have hunambiguous : Unambiguous names rows := by
    rcases h with rfl | ⟨-, -, h⟩
    · intro i row hrow
      cases hrow
    · exact h
  have hend : Json.skip (text "\n\n\n") = [] := by
    simp [text, Json.skip]
    decide
  exact ⟨_, _, ⟨isUtf8_documentText hhead hplain, _,
    reads_documentText hhead (h.imp_right And.left) hwidth hplain, hend⟩, gives_data hhead,
    givesRows_iff.mpr hunambiguous⟩

/-! ## Which tables are read back -/

/-- The rows have as many cells as there are names. -/
theorem length_row (hnames : readAll r.colNames r.colCount = some names)
    (hrows : readAll (fun row => readAll (r.data row) r.colCount) r.rowCount = some rows) :
    ∀ row ∈ rows, row.length = names.length := by
  intro row hrow
  obtain ⟨i, hi, rfl⟩ := List.mem_iff_getElem.mp hrow
  obtain ⟨hlen, hget⟩ := readAll_eq_some.mp hrows
  have hcells := (hget i (hlen ▸ hi)).trans (List.getElem?_eq_getElem hi)
  rw [(readAll_eq_some.mp hcells).1, (readAll_eq_some.mp hnames).1]

theorem json_reads_back_iff (hnames : readAll r.colNames r.colCount = some names)
    (hrows : readAll (fun row => readAll (r.data row) r.colCount) r.rowCount = some rows)
    (htitle : JsonPlain title.bytes) {options : CInt} (hjson : options &&& sosaOutputJson ≠ 0)
    (timeNow : Double) :
    (∃ out, sosaResultsOutputTo r title options timeNow = some out ∧ JsonReadsBack out names rows) ↔
      JsonSafe names rows := by
  rw [sosaResultsOutputTo, if_pos hjson, jsonText_eq timeNow hnames hrows]
  simp only [Option.some.injEq, exists_eq_left']
  have hhead := plain_outputHead (r := r) htitle timeNow
  have hwidth := length_row hnames hrows
  exact ⟨jsonSafe_of_readsBack hhead hwidth, JsonSafe.readsBack hhead hwidth⟩

theorem csv_reads_back_iff (hnames : readAll r.colNames r.colCount = some names)
    (hrows : readAll (fun row => readAll (r.data row) r.colCount) r.rowCount = some rows)
    (htitle : JsonPlain title.bytes) {options : CInt} (hjson : options &&& sosaOutputJson = 0)
    (hheader : options &&& sosaOutputWHeader ≠ 0) (timeNow : Double) :
    (∃ out, sosaResultsOutputTo r title options timeNow = some out ∧ CsvReadsBack out names rows) ↔
      CsvSafe names rows := by
  have hquote : ascii '"' ∉ title.bytes := fun h => (htitle.2 _ h).2.1 rfl
  rw [sosaResultsOutputTo, if_neg (not_not.mpr hjson), decide_eq_true hheader,
    csvText_eq hnames hrows]
  simp only [Option.some.injEq, exists_eq_left']
  exact csvReadsBack_iff hquote (length_row hnames hrows)

/-- **A table is read back** from its JSON text if its strings can stand there as they are and
no name stands for two cells, and from its values if there is no quote in it. With rows but
without columns it is read back from neither. -/
theorem output_reads_back_iff (hnames : readAll r.colNames r.colCount = some names)
    (hrows : readAll (fun row => readAll (r.data row) r.colCount) r.rowCount = some rows)
    (htitle : JsonPlain title.bytes) (options : CInt) (timeNow : Double) :
    (options &&& sosaOutputJson ≠ 0 →
      ((∃ out, sosaResultsOutputTo r title options timeNow = some out ∧ JsonReadsBack out names rows) ↔
        JsonSafe names rows)) ∧
    (options &&& sosaOutputJson = 0 → options &&& sosaOutputWHeader ≠ 0 →
      ((∃ out, sosaResultsOutputTo r title options timeNow = some out ∧ CsvReadsBack out names rows) ↔
        CsvSafe names rows)) :=
  ⟨fun hjson => json_reads_back_iff hnames hrows htitle hjson timeNow,
    fun hjson hheader => csv_reads_back_iff hnames hrows htitle hjson hheader timeNow⟩

/-- The title `t`. -/
theorem jsonPlain_t : JsonPlain (literal "t").bytes := jsonPlain_of_ordinary (by decide)

/-- Two names and two rows, with cells that have separators and brackets in them. -/
def twoColumns : ResultsObject :=
  { sosaResultsInit with
    colCount := 2
    colNames := fun col => [literal "a", literal "b,c"][col]?
    rowCount := 2
    data := fun row col =>
      [[literal "1,2", literal "x:y"], [literal "[3]", literal "1,2"]][row]?.bind (·[col]?) }

/-- They are read back from both. -/
theorem output_reads_back_iff_two :
    (∃ out, sosaResultsOutputTo twoColumns (literal "t") sosaOutputJson 0 = some out ∧
      JsonReadsBack out [literal "a", literal "b,c"]
        [[literal "1,2", literal "x:y"], [literal "[3]", literal "1,2"]]) ∧
    ∃ out, sosaResultsOutputTo twoColumns (literal "t") sosaOutputWHeader 0 = some out ∧
      CsvReadsBack out [literal "a", literal "b,c"]
        [[literal "1,2", literal "x:y"], [literal "[3]", literal "1,2"]] := by
  have hboth := output_reads_back_iff (r := twoColumns) rfl rfl jsonPlain_t
  constructor
  · refine ((hboth sosaOutputJson 0).1 (by decide)).mpr (.inr ⟨List.cons_ne_nil _ _, ?_, ?_⟩)
    · have hplain : ∀ row ∈ [[literal "a", literal "b,c"], [literal "1,2", literal "x:y"],
          [literal "[3]", literal "1,2"]], ∀ s ∈ row, ∀ x ∈ s.bytes, Ordinary x := by
        decide
      exact fun row hrow s hs => jsonPlain_of_ordinary (hplain row hrow s hs)
    · -- the names differ, and neither is that of the row
      have hnames : ∀ row ∈ [[literal "1,2", literal "x:y"], [literal "[3]", literal "1,2"]],
          ∀ p ∈ [literal "a", literal "b,c"].zip row,
            (∀ q ∈ [literal "a", literal "b,c"].zip row, q.1 = p.1 → q.2 = p.2) ∧
              p.1 ≠ literal "result_row" := by
        decide
      intro i row hrow p hp
      obtain ⟨hsame, hother⟩ := hnames row (List.mem_of_getElem? hrow) p hp
      exact ⟨hsame, fun hname => absurd hname hother⟩
  · exact ((hboth sosaOutputWHeader 0).2 (by decide) (by decide)).mpr
      ⟨.inr (List.cons_ne_nil _ _), by decide⟩

/-- A table with one name and one cell. -/
def oneCell (name cell : CString) : ResultsObject :=
  { sosaResultsInit with
    colCount := 1
    colNames := fun _ => some name
    rowCount := 1
    data := fun _ _ => some cell }

/-- **A cell with a quote in it** is read back from neither. -/
theorem not_output_reads_back :
    (¬ ∃ out, sosaResultsOutputTo (oneCell (literal "a") (literal "\"")) (literal "t")
      sosaOutputJson 0 = some out ∧ JsonReadsBack out [literal "a"] [[literal "\""]]) ∧
    ¬ ∃ out, sosaResultsOutputTo (oneCell (literal "a") (literal "\"")) (literal "t")
      sosaOutputWHeader 0 = some out ∧ CsvReadsBack out [literal "a"] [[literal "\""]] := by
  have hmem : ascii '"' ∈ (literal "\"").bytes := by decide
  rw [json_reads_back_iff rfl rfl jsonPlain_t (by decide),
    csv_reads_back_iff rfl rfl jsonPlain_t (by decide) (by decide)]
  constructor
  · rintro (hnil | ⟨-, hplain, -⟩)
    · cases hnil
    · have hcell := hplain [literal "\""] (by simp) _ List.mem_cons_self
      exact (hcell.2 _ hmem).2.1 rfl
  · rintro ⟨-, hquote⟩
    exact hquote [literal "\""] (by simp) _ List.mem_cons_self hmem

end SosFlow
