import SosFlow.Daemon.TriggerMsg

/-!
# Query results and their messages

`SOSA_results` is a table of strings that grows as cells are put into it. A
query's results are packed by the daemon, column names first and then the
cells row by row. A client reads them into a table of its own, which it grows
and wipes on the way, and the simple API also reads the counts on its own, by
skipping through the same bytes.

The wipe comes after the labels of the results were read, and takes them
along: no table has the query and its guid of the results it was read from
(`results_never_round_trip`). The names, the cells and the counts come
through (`fromBuffer_of_framed`).
-/

namespace SosFlow

open Mem (Holds)

/-- `SOSA_DEFAULT_RESULT_ROW_MAX`. -/
def sosaDefaultResultRowMax : ℕ := 16 * 1024

/-- `SOSA_DEFAULT_RESULT_COL_MAX`. -/
def sosaDefaultResultColMax : ℕ := 14

/-- `nullstr` of `SOSA_results_put`, `"NULL"`. -/
def nullstr : CString := ⟨[78, 85, 76, 76], by simp⟩

/-- A literal of the source. -/
def literal (s : String) : CString where
  bytes := (s.toList.map fun c => BitVec.ofNat 8 c.toNat).filter (· ≠ 0)
  nonzero _ hx := of_decide_eq_true (List.mem_filter.mp hx).2

/-- `"[none]"`. -/
def labelNone : CString := ⟨[91, 110, 111, 110, 101, 93], by simp⟩

/-- **A `SOSA_results` object.** What is `NULL` is `none`, a row of `data` comes
before the column, and both arrays are read below `rowMax` and `colMax` only. -/
structure ResultsObject where
  querySql : Option CString
  queryGuid : SosGuid
  execDuration : Double
  colMax : ℕ
  colCount : ℕ
  colNames : ℕ → Option CString
  rowMax : ℕ
  rowCount : ℕ
  data : ℕ → ℕ → Option CString

/-- `SOSA_results_init_sized`. -/
def sosaResultsInitSized (rowsIncoming colsIncoming : ℕ) : ResultsObject where
  querySql := none
  queryGuid := -1
  execDuration := 0
  colMax := colsIncoming
  colCount := 0
  colNames _ := none
  rowMax := rowsIncoming
  rowCount := 0
  data _ _ := none

/-- `SOSA_results_init`. -/
def sosaResultsInit : ResultsObject :=
  sosaResultsInitSized sosaDefaultResultRowMax sosaDefaultResultColMax

namespace ResultsObject

variable (r : ResultsObject)

/-- The columns that are added, in the names and in every row. -/
def growCols (newColMax : ℕ) : ResultsObject :=
  { r with
    colMax := newColMax
    colNames := fun col => if col < r.colMax then r.colNames col else none
    data := fun row col => if col < r.colMax then r.data row col else none }

/-- The rows that are added. -/
def growRows (newRowMax : ℕ) : ResultsObject :=
  { r with
    rowMax := newRowMax
    data := fun row col => if row < r.rowMax then r.data row col else none }

/-- **`SOSA_results_grow_to`**, by at least the default amounts. -/
def growTo (newColAsk newRowAsk : ℕ) : ResultsObject :=
  if newColAsk < r.colMax ∧ newRowAsk < r.rowMax then r
  else
    let newColMax := max newColAsk (r.colMax + sosaDefaultResultColMax)
    let newRowMax := max newRowAsk (r.rowMax + sosaDefaultResultRowMax)
    let grown := if newColAsk ≥ r.colMax then r.growCols newColMax else r
    if newRowAsk ≥ r.rowMax then grown.growRows newRowMax else grown

@[simp] theorem execDuration_growTo (newColAsk newRowAsk : ℕ) :
    (r.growTo newColAsk newRowAsk).execDuration = r.execDuration := by
  unfold growTo growRows growCols
  dsimp only
  split_ifs <;> rfl

/-- **`SOSA_results_put_name`.** A column that the growth stops short of is outside
the array. -/
def putName (col : ℕ) (name : CString) : Option ResultsObject :=
  let r := if col ≥ r.colMax then r.growTo col 0 else r
  if col < r.colMax then
    some { r with colNames := Function.update r.colNames col (some name) }
  else none

/-- **`SOSA_results_put`.** -/
def put (col row : ℕ) (val : Option CString) : Option ResultsObject :=
  let r := if col ≥ r.colMax ∨ row ≥ r.rowMax then r.growTo col row else r
  if col < r.colMax ∧ row < r.rowMax then
    some { r with
      rowCount := max r.rowCount (row + 1)
      colCount := max r.colCount (col + 1)
      data := Function.update r.data row
        (Function.update (r.data row) col (some (val.getD nullstr))) }
  else none

/-- **`SOSA_results_label`.** -/
def label (guid : SosGuid) (sql : Option CString) : ResultsObject :=
  { r with queryGuid := guid, querySql := some (sql.getD labelNone) }

/-- **`SOSA_results_wipe`.** -/
def wipe : ResultsObject :=
  { r with
    queryGuid := -1
    querySql := none
    data := fun row col => if row < r.rowCount ∧ col < r.colCount then none else r.data row col
    colNames := fun col => if col < r.colCount then none else r.colNames col
    colCount := 0
    rowCount := 0 }

end ResultsObject

/-- A call that builds a table. -/
inductive ResultsOp where
  | putName (col : ℕ) (name : CString)
  | put (col row : ℕ) (val : Option CString)
  | growTo (newColAsk newRowAsk : ℕ)
  | label (guid : SosGuid) (sql : Option CString)

/-- One such call. -/
def ResultsObject.call (r : ResultsObject) : ResultsOp → Option ResultsObject
  | .putName col name => r.putName col name
  | .put col row val => r.put col row val
  | .growTo newColAsk newRowAsk => some (r.growTo newColAsk newRowAsk)
  | .label guid sql => some (r.label guid sql)

/-- A table built from `SOSA_results_init`. -/
def builtResults (ops : List ResultsOp) : Option ResultsObject :=
  ops.foldlM ResultsObject.call sosaResultsInit

/-! ## Packing -/

/-- What a loop reads from the first `n` places of an array of strings, none of
which may be `NULL`. -/
def readAll {α : Type} (f : ℕ → Option α) : ℕ → Option (List α)
  | 0 => some []
  | n + 1 => do
    let before ← readAll f n
    let last ← f n
    some (before ++ [last])

/-- The names and the rows that the loops of `SOSA_results_to_buffer` read. -/
def ResultsObject.contents (r : ResultsObject) : Option SosaResults := do
  let querySql ← r.querySql
  let colNames ← readAll r.colNames r.colCount
  let rows ← readAll (fun row => readAll (r.data row) r.colCount) r.rowCount
  -- the loops over a row and over the names both end at `col_count`
  if h : ∀ row ∈ rows, row.length = colNames.length then
    some ⟨querySql, r.queryGuid, r.execDuration, colNames, rows, h⟩
  else none

section

variable [DoubleCodec]

/-- **`SOSA_results_to_buffer`.** A `strlen` of `NULL` ends it. -/
def sosaResultsPacked (commRank : CInt) (buffer : SosBuffer) (r : ResultsObject) :
    Option SosBuffer := do
  let results ← r.contents
  let m ← zipPackZip buffer (sosaResultsToBuffer commRank buffer.max results)
  some m.buffer

/-! ## Unpacking -/

/-- `SOS_buffer_unpack_safestr`, with the string that is read. -/
def unpackString (b : SosBuffer) (offset : ℕ) : Option (CString × SosBuffer × ℕ) :=
  (sosBufferUnpackSafestr b offset).map fun p => (.ofBytes p.1, p.2)

/-- One `SOS_buffer_unpack` of a guid. -/
def unpackGuid (b : SosBuffer) (offset : ℕ) : Option (SosGuid × SosBuffer × ℕ) :=
  (sosBufferUnpack b offset ['g']).bind fun u => match u.outs with
    | [some (.guid g)] => some (g, u.buffer, u.offset)
    | _ => none

/-- One `SOS_buffer_unpack` of a double. -/
def unpackDouble (b : SosBuffer) (offset : ℕ) : Option (Double × SosBuffer × ℕ) :=
  (sosBufferUnpack b offset ['d']).bind fun u => match u.outs with
    | [some (.double d)] => some (d, u.buffer, u.offset)
    | _ => none

/-- One `SOS_buffer_unpack` of two `int`s. -/
def unpackInts (b : SosBuffer) (offset : ℕ) : Option ((CInt × CInt) × SosBuffer × ℕ) :=
  (sosBufferUnpack b offset ['i', 'i']).bind fun u => match u.outs with
    | [some (.int i), some (.int j)] => some ((i, j), u.buffer, u.offset)
    | _ => none

/-- The strings of one row, or the names. -/
def unpackStrings : ℕ → SosBuffer → ℕ → Option (List CString × SosBuffer × ℕ)
  | 0, b, offset => some ([], b, offset)
  | n + 1, b, offset => do
    let (first, b, offset) ← unpackString b offset
    let (rest, b, offset) ← unpackStrings n b offset
    some (first :: rest, b, offset)

/-- The rows. -/
def unpackRows (cols : ℕ) : ℕ → SosBuffer → ℕ → Option (List (List CString) × SosBuffer × ℕ)
  | 0, b, offset => some ([], b, offset)
  | n + 1, b, offset => do
    let (first, b, offset) ← unpackStrings cols b offset
    let (rest, b, offset) ← unpackRows cols n b offset
    some (first :: rest, b, offset)

/-- A loop that writes over the first places of an array. -/
def writeOver {α : Type} (old : ℕ → α) (xs : List α) (i : ℕ) : α := xs[i]?.getD (old i)

/-- The table behind the loops that read the names and the cells. -/
def ResultsObject.filled (r : ResultsObject) (cols rows : ℕ) (colNames : List CString)
    (cells : List (List CString)) : ResultsObject :=
  { r with
    colNames := writeOver r.colNames (colNames.map some)
    data := fun row => writeOver (r.data row) ((cells[row]?.getD []).map some)
    colCount := cols
    rowCount := rows }

/-- **`SOSA_results_from_buffer`.** The labels are read into the table, which is
then grown and wiped; a negative count runs no loop. -/
def sosaResultsFromBuffer (results : ResultsObject) (buffer : SosBuffer) :
    Option ResultsObject := do
  let (_, offset) ← sosMsgUnzip buffer 0
  let (querySql, b, offset) ← unpackString buffer offset
  let (queryGuid, b, offset) ← unpackGuid b offset
  let (execDuration, b, offset) ← unpackDouble b offset
  let labelled := { results with querySql := some querySql, queryGuid, execDuration }
  let ((colIncoming, rowIncoming), b, offset) ← unpackInts b offset
  let cols := colIncoming.toInt.toNat
  let rows := rowIncoming.toInt.toNat
  let (colNames, b, offset) ← unpackStrings cols b offset
  let (cells, _, _) ← unpackRows cols rows b offset
  some ((labelled.growTo cols rows).wipe.filled cols rows colNames cells)

/-- **What `SSOS_feedback_handler` reads of the message**: the guid and the two
counts, behind the query it skips. -/
def ssosFeedbackMetadata (buffer : SosBuffer) : Option (SosGuid × CInt × CInt) := do
  let (_, offset) ← sosMsgUnzip buffer 0
  let (skipLength, b, offset) ← unpackInt buffer offset
  let (queryGuid, b, offset) ← unpackGuid b (offset + skipLength.toInt).toNat
  let (_, b, offset) ← unpackDouble b offset
  let ((colIncoming, rowIncoming), _, _) ← unpackInts b offset
  some (queryGuid, colIncoming, rowIncoming)

/-- **A table comes through**: what was read has its query, guid, duration,
counts, names and cells, one that was never put as the marker, and the simple
API reads the same guid and counts. -/
structure ComesThrough (table target : ResultsObject) (sent : SosBuffer) : Prop where
  querySql : target.querySql = table.querySql
  queryGuid : target.queryGuid = table.queryGuid
  execDuration : target.execDuration = table.execDuration
  colCount : target.colCount = table.colCount
  rowCount : target.rowCount = table.rowCount
  colNames : ∀ col < table.colCount, target.colNames col = table.colNames col
  data : ∀ row < table.rowCount, ∀ col < table.colCount,
    target.data row col = some ((table.data row col).getD nullstr)
  simple : ssosFeedbackMetadata sent =
    some (table.queryGuid, intOf table.colCount, intOf table.rowCount)

/-- **The round trip** of a table through a buffer into another table. -/
def ResultsRoundTrip (commRank : CInt) (buffer : SosBuffer) (table target : ResultsObject) :
    Prop :=
  ∃ sent, sosaResultsPacked commRank buffer table = some sent ∧
    ∃ received, sosaResultsFromBuffer target sent = some received ∧
      ComesThrough table received sent

/-! ## The labels do not come through -/

/-- Packing needs a label. -/
theorem isSome_querySql_of_packed {commRank : CInt} {buffer sent : SosBuffer}
    {table : ResultsObject} (h : sosaResultsPacked commRank buffer table = some sent) :
    table.querySql.isSome := by
  obtain ⟨results, hresults, -⟩ := Option.bind_eq_some_iff.mp h
  obtain ⟨sql, hsql, -⟩ := Option.bind_eq_some_iff.mp hresults
  rw [hsql]
  rfl

/-- **The wipe takes the labels.** -/
theorem labels_of_fromBuffer {target received : ResultsObject} {sent : SosBuffer}
    (h : sosaResultsFromBuffer target sent = some received) :
    received.querySql = none ∧ received.queryGuid = -1 := by
  obtain ⟨header, -, h⟩ := Option.bind_eq_some_iff.mp h
  obtain ⟨querySql, -, h⟩ := Option.bind_eq_some_iff.mp h
  obtain ⟨queryGuid, -, h⟩ := Option.bind_eq_some_iff.mp h
  obtain ⟨execDuration, -, h⟩ := Option.bind_eq_some_iff.mp h
  obtain ⟨counts, -, h⟩ := Option.bind_eq_some_iff.mp h
  obtain ⟨colNames, -, h⟩ := Option.bind_eq_some_iff.mp h
  obtain ⟨cells, -, h⟩ := Option.bind_eq_some_iff.mp h
  obtain rfl := Option.some.inj h
  exact ⟨rfl, rfl⟩

/-- **No table comes through.** -/
theorem results_never_round_trip (ops : List ResultsOp) (commRank : CInt) (buffer : SosBuffer)
    (target : ResultsObject) :
    ¬ ∃ table, builtResults ops = some table ∧
      ResultsRoundTrip commRank buffer table target := by
  rintro ⟨table, -, sent, hsent, received, hreceived, hthrough⟩
  have hsome := isSome_querySql_of_packed hsent
  rw [← hthrough.querySql, (labels_of_fromBuffer hreceived).1] at hsome
  cases hsome

/-! ## What does come through -/

omit [DoubleCodec] in
/-- A string is no block. -/
theorem string_not_block (v : CString) : ∀ f ∈ [Field.s v], ¬ f.IsBlock := by
  simp [Field.IsBlock]

/-- The calls that pack some strings. -/
def stringCalls (xs : List CString) : List PackCall :=
  xs.map fun v => .fields [.s v] (string_not_block v)

section

variable {b : SosBuffer} {offset : ℕ}

theorem unpackGuid_of_holds {g : SosGuid} (hholds : Holds b.data offset (Field.g g).enc)
    (hin : offset + 8 ≤ b.max) : unpackGuid b offset = some (g, b, offset + 8) := by
  have hread : sosBufferUnpack b offset ['g'] = some ⟨b, offset + 8, 8, [some (.guid g)]⟩ :=
    sosBufferUnpack_one (f := .g g) rfl id trivial hholds hin
  rw [unpackGuid, hread, Option.bind_some]

theorem unpackDouble_of_holds {d : Double} (hholds : Holds b.data offset (Field.d d).enc)
    (hin : offset + 8 ≤ b.max) : unpackDouble b offset =
      some (DoubleCodec.unpack754 (DoubleCodec.pack754 d), b, offset + 8) := by
  have hread : sosBufferUnpack b offset ['d'] = some ⟨b, offset + 8, 8,
      [some (.double (DoubleCodec.unpack754 (DoubleCodec.pack754 d)))]⟩ :=
    sosBufferUnpack_one (f := .d d) rfl id trivial hholds hin
  rw [unpackDouble, hread, Option.bind_some]

theorem unpackInts_of_holds {i j : CInt} (hholds : Holds b.data offset (encAll [.i i, .i j]))
    (hin : offset + 8 ≤ b.max) : unpackInts b offset = some ((i, j), b, offset + 8) := by
  have hread : sosBufferUnpack b offset (formatOf [.i i, .i j]) =
      some ⟨b, offset + 8, 8, [some (.int i), some (.int j)]⟩ :=
    sosBufferUnpack_reads (by simp [Field.IsBlock]) (by simp [Field.Short]) (by omega) hholds hin
  have hformat : ['i', 'i'] = formatOf [.i i, .i j] := rfl
  rw [unpackInts, hformat, hread, Option.bind_some]

/-- A string is read as it was packed. -/
theorem unpackString_of_holds {v : CString} (hv : v.length ≤ intMax)
    (hholds : Holds b.data offset (Field.s v).enc) (hin : offset + (Field.s v).size ≤ b.max) :
    unpackString b offset = some (v, b, offset + (Field.s v).size) := by
  rw [unpackString, sosBufferUnpackSafestr_of_holds hv hholds hin, Option.map_some,
    CString.ofBytes_append_zero]

/-- **So are the strings of a row.** -/
theorem unpackStrings_of_holds {xs : List CString}
    (hholds : Holds b.data offset (encCalls (stringCalls xs)))
    (hin : offset + (encCalls (stringCalls xs)).length ≤ b.max) :
    unpackStrings xs.length b offset =
      some (xs, b, offset + (encCalls (stringCalls xs)).length) := by
  induction xs generalizing offset with
  | nil => rfl
  | cons v rest ih =>
      have hcons : encCalls (stringCalls (v :: rest)) =
          (Field.s v).enc ++ encCalls (stringCalls rest) := by
        show encAll [Field.s v] ++ encCalls (stringCalls rest) = _
        rw [encAll_cons, encAll_nil, List.append_nil]
      rw [hcons, Mem.holds_append, Field.length_enc] at hholds
      rw [hcons, List.length_append, Field.length_enc] at hin
      have hmax := b.max_le_intMax
      have hv : v.length ≤ intMax := by
        have hsize : (Field.s v).size = 4 + v.length := rfl
        omega
      have hfirst := unpackString_of_holds hv hholds.1 (by omega)
      have hrest := ih hholds.2 (by omega)
      simp only [List.length_cons, unpackStrings, hfirst, hrest, Option.bind_eq_bind,
        Option.bind_some]
      rw [hcons, List.length_append, Field.length_enc, Nat.add_assoc]

/-- **So are the rows**, each with as many cells as there are columns. -/
theorem unpackRows_of_holds {cols : ℕ} {rows : List (List CString)}
    (hcols : ∀ row ∈ rows, row.length = cols)
    (hholds : Holds b.data offset (encCalls (rows.flatMap stringCalls)))
    (hin : offset + (encCalls (rows.flatMap stringCalls)).length ≤ b.max) :
    unpackRows cols rows.length b offset =
      some (rows, b, offset + (encCalls (rows.flatMap stringCalls)).length) := by
  induction rows generalizing offset with
  | nil => rfl
  | cons row rest ih =>
      rw [List.forall_mem_cons] at hcols
      have hcons : encCalls ((row :: rest).flatMap stringCalls) =
          encCalls (stringCalls row) ++ encCalls (rest.flatMap stringCalls) := by
        rw [List.flatMap_cons, encCalls, List.flatMap_append]
        rfl
      rw [hcons, Mem.holds_append] at hholds
      rw [hcons, List.length_append] at hin
      have hfirst := unpackStrings_of_holds hholds.1 (by omega)
      rw [hcols.1] at hfirst
      have hrest := ih hcols.2 hholds.2 (by omega)
      simp only [List.length_cons, unpackRows, hfirst, hrest, Option.bind_eq_bind, Option.bind_some]
      rw [hcons, List.length_append, Nat.add_assoc]

end

/-- The query as it is packed. -/
def SosaResults.sentSql (results : SosaResults) : CString :=
  if results.querySql.length < 1 then unlabelledQuery else results.querySql

/-- The bytes of a message of results. -/
theorem encCalls_results (commRank : CInt) (maxSize : ℕ) (results : SosaResults) :
    encCalls (sosaResultsToBuffer commRank maxSize results).calls =
      (Field.s results.sentSql).enc ++ ((Field.g results.queryGuid).enc ++
        ((Field.d results.execDuration).enc ++
        (encAll [.i (intOf results.colNames.length), .i (intOf results.rows.length)] ++
        (encCalls (stringCalls results.colNames) ++
        encCalls (results.rows.flatMap stringCalls))))) := by
  show encAll [Field.s results.sentSql, .g results.queryGuid, .d results.execDuration] ++
    (encAll [.i (intOf results.colNames.length), .i (intOf results.rows.length)] ++
      encCalls (stringCalls results.colNames ++ results.rows.flatMap stringCalls)) = _
  rw [encCalls, List.flatMap_append, encAll_cons, encAll_cons, encAll_cons, encAll_nil]
  simp only [List.append_assoc, List.append_nil, encCalls]

/-- **What does come through**: the duration as the conversions leave it, the
counts, the names and the cells, and all that the simple API reads. -/
theorem fromBuffer_of_framed {commRank : CInt} {maxSize : ℕ} {results : SosaResults} {m : Built}
    (target : ResultsObject) (hcols : results.colNames.length ≤ intMax)
    (hrows : results.rows.length ≤ intMax)
    (hframed : Framed m (sosaResultsToBuffer commRank maxSize results)) :
    (∃ received, sosaResultsFromBuffer target m.buffer = some received ∧
      received.execDuration = DoubleCodec.unpack754 (DoubleCodec.pack754 results.execDuration) ∧
      received.colCount = results.colNames.length ∧ received.rowCount = results.rows.length ∧
      (∀ (col : ℕ) (name : CString), results.colNames[col]? = some name →
        received.colNames col = some name) ∧
      ∀ (row col : ℕ) (cells : List CString) (cell : CString), results.rows[row]? = some cells →
        cells[col]? = some cell → received.data row col = some cell) ∧
    ssosFeedbackMetadata m.buffer = some (results.queryGuid, intOf results.colNames.length,
      intOf results.rows.length) := by
  have hheld := hframed.bytes
  have hbound := hheld.bound (by simp [SosMsgHeader.enc, SosMsgHeader.fields, Field.enc_ne_nil])
  have hsize : (Field.s results.sentSql).size = 4 + results.sentSql.length := rfl
  have htwo : sizeOf' [Field.i (intOf results.colNames.length),
    .i (intOf results.rows.length)] = 8 := rfl
  have hg : (Field.g results.queryGuid).size = 8 := rfl
  have hd : (Field.d results.execDuration).size = 8 := rfl
  rw [encCalls_results] at hheld hbound
  simp only [List.length_append, SosMsgHeader.length_enc, Field.length_enc, length_encAll,
    Nat.zero_add, hg, hd, htwo] at hbound
  rw [Mem.holds_append, SosMsgHeader.length_enc, Nat.zero_add, Mem.holds_append, Field.length_enc,
    Mem.holds_append, Field.length_enc, Mem.holds_append, Field.length_enc, Mem.holds_append,
    length_encAll, Mem.holds_append, hg, hd, htwo] at hheld
  obtain ⟨hheader, hsql, hguid, hduration, hcounts, hnames, hcells⟩ := hheld
  have hmax := m.buffer.max_le_intMax
  have hend : headerSize + (Field.s results.sentSql).size + 8 + 8 + 8 +
      (encCalls (stringCalls results.colNames)).length +
      (encCalls (results.rows.flatMap stringCalls)).length ≤ m.buffer.max := by
    unfold SosBuffer.max
    omega
  have hshort : results.sentSql.length ≤ intMax := by omega
  have hread := sosMsgUnzip_of_holds (by omega) hheader
  have hquery := unpackString_of_holds hshort hsql (by omega)
  have hskip := unpackInt_of_holds (i := intOf results.sentSql.length)
    (Mem.holds_append.mp hsql).1 (by omega)
  have hguid' := unpackGuid_of_holds hguid (by omega)
  have hduration' := unpackDouble_of_holds hduration (by omega)
  have hcounts' := unpackInts_of_holds hcounts (by omega)
  have hnames' := unpackStrings_of_holds hnames (by omega)
  have hcells' := unpackRows_of_holds results.rows_length hcells hend
  have htoCols : (intOf results.colNames.length).toInt.toNat = results.colNames.length := by
    rw [toInt_intOf hcols, Int.toNat_natCast]
  have htoRows : (intOf results.rows.length).toInt.toNat = results.rows.length := by
    rw [toInt_intOf hrows, Int.toNat_natCast]
  refine ⟨?_, ?_⟩
  · simp only [sosaResultsFromBuffer, hread, hquery, hguid', hduration', hcounts', htoCols, htoRows,
      hnames', hcells', Option.bind_eq_bind, Option.bind_some]
    refine ⟨_, rfl, ResultsObject.execDuration_growTo _ _ _, rfl, rfl, ?_, ?_⟩
    · intro col name hname
      show (results.colNames.map some)[col]?.getD _ = some name
      rw [List.getElem?_map, hname]
      rfl
    · intro row col cells cell hrow hcell
      show ((results.rows[row]?.getD []).map some)[col]?.getD _ = some cell
      rw [hrow, Option.getD_some, List.getElem?_map, hcell]
      rfl
  · have hafter : ((headerSize + 4 : ℕ) + (intOf results.sentSql.length).toInt).toNat =
        headerSize + (Field.s results.sentSql).size := by
      rw [toInt_intOf hshort, hsize]
      omega
    simp only [ssosFeedbackMetadata, hread, hskip, hafter, hguid', hduration', hcounts',
      Option.bind_eq_bind, Option.bind_some]

end

/-- A table of one cell, named and labelled. -/
def oneCellOps : List ResultsOp :=
  [.putName 0 nameX, .put 0 0 (some nameX), .label 7 (some nameX)]

/-- **Its message is read into a fresh table**, which has the cell and no label. -/
theorem not_results_round_trip :
    letI := DoubleCodec.bits
    (∃ table sent received, builtResults oneCellOps = some table ∧
      sosaResultsPacked 0 (sosBufferInitSized 128 (by decide)) table = some sent ∧
      sosaResultsFromBuffer sosaResultsInit sent = some received ∧
      received.data 0 0 = some nameX ∧
      table.queryGuid = 7 ∧ received.queryGuid = -1 ∧
      table.querySql = some nameX ∧ received.querySql = none) ∧
    ¬ ∀ ops table target, builtResults ops = some table →
      ResultsRoundTrip 0 (sosBufferInitSized 128 (by decide)) table target := by
  let _ := DoubleCodec.bits
  have hrun : ((builtResults oneCellOps).bind fun table =>
      (sosaResultsPacked 0 (sosBufferInitSized 128 (by decide)) table).bind fun sent =>
      (sosaResultsFromBuffer sosaResultsInit sent).map fun received =>
        (received.data 0 0, table.queryGuid, received.queryGuid, table.querySql,
          received.querySql)) = some (some nameX, 7, -1, some nameX, none) := by
    decide +kernel
  obtain ⟨table, htable, hrun⟩ := Option.bind_eq_some_iff.mp hrun
  obtain ⟨sent, hsent, hrun⟩ := Option.bind_eq_some_iff.mp hrun
  obtain ⟨received, hreceived, hrun⟩ := Option.map_eq_some_iff.mp hrun
  simp only [Prod.mk.injEq] at hrun
  obtain ⟨hcell, hguid, hguid', hsql, hsql'⟩ := hrun
  refine ⟨⟨table, sent, received, htable, hsent, hreceived, hcell, hguid, hguid', hsql, hsql'⟩, ?_⟩
  intro hall
  obtain ⟨sent', hsent', received', hreceived', hthrough⟩ :=
    hall oneCellOps table sosaResultsInit htable
  obtain rfl := Option.some.inj (hsent.symm.trans hsent')
  obtain rfl := Option.some.inj (hreceived.symm.trans hreceived')
  have hsame := hthrough.querySql
  rw [hsql, hsql'] at hsame
  cases hsame

end SosFlow
