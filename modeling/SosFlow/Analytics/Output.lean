import SosFlow.Analytics.Manifest
import SosFlow.Lib.Binary
import SosFlow.Lib.Csv
import SosFlow.Lib.Utf8

/-!
# The output of a results table

`SOSA_results_output_to` prints a table as a JSON text, or as comma separated
values with a header or without. It puts every string between quotes as it
is, and finds the commas and the line ends by comparing the column and the
row with the last.

What is printed is a list of octets. A name or a cell that is `NULL` prints
nothing that could be relied on, and has no text here.
-/

namespace SosFlow

open Utf8 Separated

/-! ## What is printed -/

/-- `SOSA_OUTPUT_JSON`. -/
def sosaOutputJson : CInt := 1 <<< 0

/-- `SOSA_OUTPUT_W_HEADER`. -/
def sosaOutputWHeader : CInt := 1 <<< 1

/-- `"%lf"`, with that many places behind the point. -/
def fixedStr (places : ℕ) (d : Double) : List Byte :=
  (if d.msb then text "-" else []) ++
    match Binary.ofBits d with
    | .finite x =>
      let n := (Binary.roundEven (|x| * 10 ^ places)).toNat
      (intStr (n / 10 ^ places : ℕ)).bytes ++ text "." ++
        (List.range places).reverse.map fun i => BitVec.ofNat 8 (48 + n / 10 ^ i % 10)
    | .inf _ => text "inf"
    | .nan => text "nan"

/-- What a loop of `n` turns prints. -/
def printed (n : ℕ) (turn : ℕ → Option (List Byte)) : Option (List Byte) :=
  (readAll turn n).map List.flatten

namespace ResultsObject

variable (r : ResultsObject)

/-- One column of a row, as JSON. -/
def jsonColumn (row col : ℕ) : Option (List Byte) := do
  let name ← r.colNames col
  let cell ← r.data row col
  some (text "\t\t\"" ++ name.bytes ++ text "\": \"" ++ cell.bytes ++ text "\"" ++
    if (col : ℤ) < r.colCount - 1 then text ",\n" else text "\n")

/-- One row. -/
def jsonRow (row : ℕ) : Option (List Byte) := do
  let columns ← printed r.colCount (r.jsonColumn row)
  some (text "\t\x7b\n" ++ text "\t\t\"result_row\": \"" ++ (intStr row).bytes ++ text "\",\n" ++
    columns ++ text "\t\x7d" ++
    if (row : ℤ) < r.rowCount - 1 then text ",\n" else text "\n")

/-- `case SOSA_OUTPUT_JSON`. -/
def jsonText (title : CString) (timeNow : Double) : Option (List Byte) := do
  let rows ← printed r.rowCount r.jsonRow
  some (text "\x7b\n \"title\"      : \"" ++ title.bytes ++ text "\",\n" ++
    text " \"time_stamp\" : \"" ++ fixedStr 6 timeNow ++ text "\",\n" ++
    text " \"exec_duration\" : \"" ++ fixedStr 12 r.execDuration ++ text "\",\n" ++
    text " \"col_count\"  : \"" ++ (intStr r.colCount).bytes ++ text "\",\n" ++
    text " \"row_count\"  : \"" ++ (intStr r.rowCount).bytes ++ text "\",\n" ++
    text " \"data\"       :\n [\n" ++ rows ++ text " ]\n" ++ text "\x7d\n\n\n")

/-- A string and what is behind it in a line of values. -/
def csvString (s : CString) (col : ℕ) : List Byte :=
  text "\"" ++ s.bytes ++ text "\"" ++ if (col : ℤ) = r.colCount - 1 then text "\n" else text ","

/-- The header. -/
def csvHeader (title : CString) : Option (List Byte) := do
  let columns ← printed r.colCount fun col => (r.colNames col).map (r.csvString · col)
  some (text "\"" ++ title.bytes ++ text "\"," ++ columns)

/-- One row, as values. -/
def csvRow (row : ℕ) : Option (List Byte) := do
  let columns ← printed r.colCount fun col => (r.data row col).map (r.csvString · col)
  some (text "\"" ++ (intStr row).bytes ++ text "\"," ++ columns)

/-- `default`. -/
def csvText (title : CString) (header : Bool) : Option (List Byte) := do
  let before ← if header then r.csvHeader title else some []
  let rows ← printed r.rowCount r.csvRow
  some (before ++ rows)

end ResultsObject

/-- **`SOSA_results_output_to`**, at the time `timeNow`. -/
def sosaResultsOutputTo (r : ResultsObject) (title : CString) (options : CInt)
    (timeNow : Double) : Option (List Byte) :=
  if options &&& sosaOutputJson ≠ 0 then r.jsonText title timeNow
  else r.csvText title (options &&& sosaOutputWHeader ≠ 0)

/-! ## The loops -/

/-- A loop reads a list if it reads its entries. -/
theorem readAll_eq_some {α : Type} {f : ℕ → Option α} {n : ℕ} {l : List α} :
    readAll f n = some l ↔ l.length = n ∧ ∀ i < n, f i = l[i]? := by
  induction n generalizing l with
  | zero => simp [readAll, eq_comm]
  | succ n ih =>
      simp only [readAll, Option.bind_eq_bind, Option.bind_eq_some_iff, Option.some.injEq]
      constructor
      · rintro ⟨before, hbefore, last, hlast, rfl⟩
        obtain ⟨rfl, hget⟩ := ih.mp hbefore
        refine ⟨List.length_append, fun i hi => ?_⟩
        by_cases heq : i = before.length
        · rw [heq, hlast, List.getElem?_concat_length]
        · rw [List.getElem?_append_left (by omega)]
          exact hget i (by omega)
      · rintro ⟨hlen, hget⟩
        obtain ⟨before, last, rfl⟩ : ∃ before last, l = before ++ [last] :=
          ⟨_, _, (List.dropLast_append_getLast (List.ne_nil_of_length_eq_add_one hlen)).symm⟩
        have hbefore : before.length = n := by simpa using hlen
        refine ⟨before, ih.mpr ⟨hbefore, fun i hi => ?_⟩, last, ?_, rfl⟩
        · rw [hget i (by omega), List.getElem?_append_left (by omega)]
        · rw [hget n (by omega), ← hbefore, List.getElem?_concat_length]

/-- **A loop that prints items** with one text behind each but the last. -/
theorem printed_eq_separated {n : ℕ} {turn : ℕ → Option (List Byte)} {ws : List (List Byte)}
    {sep fin : List Byte} (hlen : ws.length = n)
    (hturn : ∀ i (h : i < ws.length), turn i = some (ws[i] ++ if i + 1 < n then sep else fin)) :
    printed n turn = some (separated sep fin ws) := by
  have hread : readAll turn n = some (ws.mapIdx fun i w => w ++ if i + 1 < n then sep else fin) := by
    refine readAll_eq_some.mpr ⟨by rw [List.length_mapIdx, hlen], fun i hi => ?_⟩
    rw [List.getElem?_mapIdx, List.getElem?_eq_getElem (hlen ▸ hi), hturn i (hlen ▸ hi)]
    rfl
  rw [printed, hread, Option.map_some, ← hlen, flatten_mapIdx]

/-! ## As comma separated values -/

/-- The values are separated by commas and the records by line ends. -/
def csvDialect : Csv.Dialect Byte where
  quote := ascii '"'
  delimiter := ascii ','
  terminator := ascii '\n'
  quote_ne_delimiter := by decide
  quote_ne_terminator := by decide
  delimiter_ne_terminator := by decide

/-- The octets of some strings. -/
def textsOf (ss : List CString) : List (List Byte) := ss.map (·.bytes)

/-- A record: a first value, with a comma behind it, and the others. -/
def csvRecord (p : List Byte × List CString) : List Byte :=
  Csv.between csvDialect p.1 ++ ascii ',' ::
    separated [ascii ','] [ascii '\n'] ((textsOf p.2).map (Csv.between csvDialect))

/-- The records of a table: the header, and the rows with their numbers. -/
def csvRecords (title : CString) (names : List CString) (rows : List (List CString)) :
    List (List Byte × List CString) :=
  (title.bytes, names) :: rows.mapIdx fun i row => ((intStr i).bytes, row)

/-- **The table is read back from the values**: the text has a record for the header and one
for each row, all with one number of fields, and what is quoted in them behind the first
are the names and the cells. -/
def CsvReadsBack (out : List Byte) (names : List CString) (rows : List (List CString)) : Prop :=
  ∃ records, Csv.parse csvDialect out = some records ∧
    (∃ width, ∀ fields ∈ records, fields.length = width) ∧
    records.map (fun fields => (Csv.quotedTexts fields).tail) = (names :: rows).map textsOf

/-- **Tables that can be**: there is no quote in them, and the rows have columns. -/
def CsvSafe (names : List CString) (rows : List (List CString)) : Prop :=
  (rows = [] ∨ names ≠ []) ∧ ∀ row ∈ names :: rows, ∀ s ∈ row, ascii '"' ∉ s.bytes

variable {r : ResultsObject} {title : CString} {names : List CString} {rows : List (List CString)}

/-- The loop over the columns prints them with commas between them. -/
theorem printed_csvString {f : ℕ → Option CString} {cells : List CString}
    (h : readAll f r.colCount = some cells) :
    printed r.colCount (fun col => (f col).map (r.csvString · col)) =
      some (separated [ascii ','] [ascii '\n'] ((textsOf cells).map (Csv.between csvDialect))) := by
  obtain ⟨hlen, hget⟩ := readAll_eq_some.mp h
  refine printed_eq_separated (by simpa [textsOf] using hlen) fun i hi => ?_
  have hi : i < cells.length := by simpa [textsOf] using hi
  have hlast : (if (i : ℤ) = r.colCount - 1 then text "\n" else text ",") =
      if i + 1 < r.colCount then [ascii ','] else [ascii '\n'] := by
    split_ifs <;> first | rfl | omega
  rw [hget i (by omega), List.getElem?_eq_getElem hi, Option.map_some, ResultsObject.csvString, hlast]
  simp only [textsOf, List.getElem_map]
  rfl

/-- **What is printed of a table** with a header. -/
theorem csvText_eq (hnames : readAll r.colNames r.colCount = some names)
    (hrows : readAll (fun row => readAll (r.data row) r.colCount) r.rowCount = some rows) :
    r.csvText title true = some ((csvRecords title names rows).flatMap csvRecord) := by
  obtain ⟨hlen, hget⟩ := readAll_eq_some.mp hrows
  have hheader : r.csvHeader title = some (csvRecord (title.bytes, names)) := by
    rw [ResultsObject.csvHeader, printed_csvString hnames, csvRecord, Csv.between]
    simp [text, csvDialect]
  have hrow : ∀ i (hi : i < rows.length), r.csvRow i = some (csvRecord ((intStr i).bytes, rows[i])) := by
    intro i hi
    have hcells := (hget i (by omega)).trans (List.getElem?_eq_getElem hi)
    rw [ResultsObject.csvRow, printed_csvString hcells, csvRecord, Csv.between]
    simp [text, csvDialect]
  have hprinted : readAll r.csvRow r.rowCount =
      some (rows.mapIdx fun i row => csvRecord ((intStr i).bytes, row)) := by
    refine readAll_eq_some.mpr ⟨by rw [List.length_mapIdx, hlen], fun i hi => ?_⟩
    rw [List.getElem?_mapIdx, List.getElem?_eq_getElem (by omega), hrow i (by omega)]
    rfl
  have hrecords : (rows.mapIdx fun i row => ((intStr i).bytes, row)).map csvRecord =
      rows.mapIdx fun i row => csvRecord ((intStr i).bytes, row) :=
    map_mapIdx _ _ rows
  rw [ResultsObject.csvText, if_pos rfl, hheader, printed, hprinted, csvRecords, List.flatMap_cons,
    List.flatMap_def, hrecords]
  rfl

/-- A number is printed in digits. -/
theorem intStr_digit (n : ℕ) : ∀ x ∈ (intStr n).bytes, 48 ≤ x.toNat ∧ x.toNat ≤ 57 := by
  have hsign : ¬ (n : ℤ) < 0 := by omega
  intro x hx
  simp only [intStr, hsign, if_false, List.nil_append] at hx
  split at hx
  case isTrue =>
    rw [List.mem_singleton.mp hx]
    decide
  case isFalse =>
    obtain ⟨d, hd, rfl⟩ := List.mem_map.mp hx
    have hlt : d < 10 := Nat.digits_lt_base (by decide) (List.mem_reverse.mp hd)
    rw [BitVec.toNat_ofNat]
    omega

/-- **Records with columns and without quotes** are read. -/
theorem parse_csvRecords {ws : List (List Byte × List CString)} (hne : ∀ p ∈ ws, p.2 ≠ [])
    (hfirst : ∀ p ∈ ws, ascii '"' ∉ p.1) (hquote : ∀ p ∈ ws, ∀ s ∈ p.2, ascii '"' ∉ s.bytes) :
    Csv.parse csvDialect (ws.flatMap csvRecord) =
      some (ws.map fun p => (p.1 :: textsOf p.2).map (Csv.Field.mk true)) := by
  induction ws with
  | nil => rfl
  | cons p ws ih =>
      rw [List.forall_mem_cons] at hne hfirst hquote
      have hrecord : csvRecord p = separated [csvDialect.delimiter] [csvDialect.terminator]
          ((p.1 :: textsOf p.2).map (Csv.between csvDialect)) := by
        obtain ⟨s, rest, hs⟩ := List.exists_cons_of_ne_nil hne.1
        rw [csvRecord, hs]
        rfl
      have hws : ∀ w ∈ p.1 :: textsOf p.2, csvDialect.quote ∉ w := by
        rw [List.forall_mem_cons]
        refine ⟨hfirst.1, fun w hw => ?_⟩
        obtain ⟨s, hs, rfl⟩ := List.mem_map.mp hw
        exact hquote.1 s hs
      have hrest := ih hne.2 hfirst.2 hquote.2
      rw [Csv.parse] at hrest
      rw [List.flatMap_cons, hrecord, Csv.parse, Csv.scan_record (List.cons_ne_nil _ _) hws, hrest]
      rfl

/-- The quotes of a record. -/
theorem count_csvRecord {p : List Byte × List CString} (hfirst : ascii '"' ∉ p.1) :
    (csvRecord p).count (ascii '"') =
      2 + ((textsOf p.2).map fun w => 2 + w.count (ascii '"')).sum := by
  have hzero : p.1.count (ascii '"') = 0 := List.count_eq_zero.mpr hfirst
  have hbetween := Csv.count_between (d := csvDialect) p.1
  have hseparated := Csv.count_separated (d := csvDialect) (textsOf p.2)
  have hcomma : ascii ',' ≠ ascii '"' := by decide
  rw [csvRecord, List.count_append, List.count_cons_of_ne hcomma]
  simp only [csvDialect] at hbetween hseparated ⊢
  rw [hbetween, hseparated, hzero]

/-- Without columns there is one record, which has no end. -/
theorem parse_without_columns {ws : List (List Byte × List CString)} (hne : ws ≠ [])
    (hnil : ∀ p ∈ ws, p.2 = []) (hfirst : ∀ p ∈ ws, ascii '"' ∉ p.1) :
    Csv.parse csvDialect (ws.flatMap csvRecord) =
      some [(ws.map Prod.fst).map (Csv.Field.mk true) ++ [⟨false, []⟩]] := by
  have hws : ∀ w ∈ ws.map Prod.fst, csvDialect.quote ∉ w := by
    intro w hw
    obtain ⟨p, hp, rfl⟩ := List.mem_map.mp hw
    exact hfirst p hp
  have htext : ws.flatMap csvRecord =
      (ws.map Prod.fst).flatMap fun w => Csv.between csvDialect w ++ [csvDialect.delimiter] := by
    rw [List.flatMap_map]
    refine List.flatMap_congr fun p hp => ?_
    rw [csvRecord, hnil p hp]
    rfl
  have hfields : [] ++ (ws.map Prod.fst).map (Csv.Field.mk true) ≠ [] := by simpa using hne
  rw [htext, Csv.parse, Csv.scan_unended hfields hws]
  rfl

/-- What is quoted in a record of quoted fields. -/
theorem quotedTexts_map (ws : List (List Byte)) : Csv.quotedTexts (ws.map (Csv.Field.mk true)) = ws := by
  rw [Csv.quotedTexts, List.filter_map, List.map_map]
  simp [Function.comp_def]

/-- The numbers in front of the rows have no quote. -/
theorem first_csvRecords (htitle : ascii '"' ∉ title.bytes) :
    ∀ p ∈ csvRecords title names rows, ascii '"' ∉ p.1 := by
  rw [csvRecords, List.forall_mem_cons]
  refine ⟨htitle, fun p hp hquote => ?_⟩
  obtain ⟨i, _, rfl⟩ := List.mem_mapIdx.mp hp
  exact absurd (intStr_digit i _ hquote).1 (by decide)

theorem snd_csvRecords (title : CString) :
    (csvRecords title names rows).map Prod.snd = names :: rows := by
  rw [csvRecords, List.map_cons, List.mapIdx_eq_zipIdx_map, List.map_map]
  exact congrArg _ (List.zipIdx_map_fst 0 rows)

/-- Without columns a table is read back if it has no rows either. -/
theorem csvReadsBack_without_columns (htitle : ascii '"' ∉ title.bytes)
    (hnil : ∀ row ∈ rows, row = []) :
    CsvReadsBack ((csvRecords title [] rows).flatMap csvRecord) [] rows ↔ rows = [] := by
  have hparse : Csv.parse csvDialect ((csvRecords title [] rows).flatMap csvRecord) =
      some [((csvRecords title [] rows).map Prod.fst).map (Csv.Field.mk true) ++ [⟨false, []⟩]] := by
    refine parse_without_columns (List.cons_ne_nil _ _) (fun p hp => ?_) (first_csvRecords htitle)
    have hmem : p.2 ∈ [] :: rows := by
      rw [← snd_csvRecords title]
      exact List.mem_map_of_mem hp
    exact (List.mem_cons.mp hmem).elim id (hnil p.2)
  constructor
  · rintro ⟨records, hrecords, -, hrows⟩
    obtain rfl := Option.some.inj (hparse.symm.trans hrecords)
    have hlen := congrArg List.length hrows
    simp only [List.map_cons, List.length_cons, List.length_map, List.map_nil, List.length_nil] at hlen
    exact List.eq_nil_of_length_eq_zero (by omega)
  · rintro rfl
    refine ⟨_, hparse, ⟨2, ?_⟩, rfl⟩
    rw [List.forall_mem_singleton]
    rfl

/-- **Which tables are read back** from their values. -/
theorem csvReadsBack_iff (htitle : ascii '"' ∉ title.bytes)
    (hwidth : ∀ row ∈ rows, row.length = names.length) :
    CsvReadsBack ((csvRecords title names rows).flatMap csvRecord) names rows ↔ CsvSafe names rows := by
  by_cases hnames : names = []
  · subst hnames
    have hnil : ∀ row ∈ rows, row = [] :=
      fun row hrow => List.eq_nil_of_length_eq_zero (hwidth row hrow)
    rw [csvReadsBack_without_columns htitle hnil, CsvSafe]
    constructor
    · rintro rfl
      exact ⟨.inl rfl, by simp⟩
    · rintro ⟨hrows, -⟩
      exact hrows.resolve_right fun h => h rfl
  · have hall : ∀ row ∈ names :: rows, row ≠ [] := by
      rw [List.forall_mem_cons]
      refine ⟨hnames, fun row hrow hnil => hnames ?_⟩
      exact List.eq_nil_of_length_eq_zero (by rw [← hwidth row hrow, hnil, List.length_nil])
    constructor
    · rintro ⟨records, hparse, -, hrows⟩
      refine ⟨.inr hnames, fun row hrow s hs => ?_⟩
      refine Csv.quote_notMem_of_parse (d := csvDialect) hparse hrows ?_ ?_ (textsOf row)
        (List.mem_map_of_mem hrow) s.bytes (List.mem_map_of_mem hs)
      · intro texts htexts hnil
        obtain ⟨row, hrow, rfl⟩ := List.mem_map.mp htexts
        exact hall row hrow (List.map_eq_nil_iff.mp hnil)
      · rw [← snd_csvRecords title, List.count_flatMap, List.map_map, List.map_map]
        refine congrArg List.sum (List.map_congr_left fun p hp => ?_)
        exact count_csvRecord (first_csvRecords htitle p hp)
    · rintro ⟨-, hquote⟩
      have hmem : ∀ p ∈ csvRecords title names rows, p.2 ∈ names :: rows := by
        intro p hp
        rw [← snd_csvRecords title]
        exact List.mem_map_of_mem hp
      refine ⟨_, parse_csvRecords (fun p hp => hall _ (hmem p hp)) (first_csvRecords htitle)
        (fun p hp => hquote _ (hmem p hp)), ⟨names.length + 1, ?_⟩, ?_⟩
      · intro fields hfields
        obtain ⟨p, hp, rfl⟩ := List.mem_map.mp hfields
        have hlen : p.2.length = names.length :=
          (List.mem_cons.mp (hmem p hp)).elim (fun h => h ▸ rfl) (hwidth p.2)
        rw [List.length_map, List.length_cons, textsOf, List.length_map, hlen]
      · rw [← snd_csvRecords title, List.map_map, List.map_map]
        refine List.map_congr_left fun p _ => ?_
        rw [Function.comp_apply, quotedTexts_map]
        rfl

end SosFlow
