import SosFlow.Analytics.TableRuns

/-!
# From a statement to a results table

A query of the database is prepared as a statement, and its columns and
rows are put into a fresh results table. The table is asked to grow once,
to the number of columns and to the rows it has, and then again in front of
every row. It reaches every column and every row before it is put there, and
ends with what the statement had (`statementTable_complete`).

The counts are `int`s in the source. No growth on the way gets the table
further than the default amounts beyond what the statement asks for, so the
sums are in their range if the statement leaves that much room (`IntRoom`).
-/

namespace SosFlow

/-- **A prepared statement**, by the names of its columns and the texts that its
rows step through. -/
structure SqlStatement where
  columns : List CString
  rows : List (List (Option CString))
  width : ∀ vals ∈ rows, vals.length = columns.length

/-- The loop over the rows of a statement, from `rowIncoming` on. -/
def stepRows (colIncoming : ℕ) :
    ℕ → List (List (Option CString)) → ResultsTable → Option ResultsTable
  | _, [], results => some results
  | rowIncoming, vals :: rest, results => do
    let results ← results.growTo colIncoming rowIncoming
    let results ← ResultsTable.putRow rowIncoming 0 vals results
    stepRows colIncoming (rowIncoming + 1) rest { results with rowCount := rowIncoming + 1 }

/-- What the branch of a query that was prepared makes of its results. -/
def executeStatement (statement : SqlStatement) (results : ResultsTable) : Option ResultsTable := do
  let colIncoming := statement.columns.length
  let counted := { results with colCount := colIncoming }
  let results ← counted.growTo colIncoming counted.rowMax
  let results ← ResultsTable.putNames 0 statement.columns results
  stepRows colIncoming 0 statement.rows results

/-- **The table that `SOSD_db_handle_sosa_query` builds.** A query that is missing or
not prepared leaves it as it was made. -/
def sosdDbHandleSosaQuery (prepare : CString → Option SqlStatement) (queryGuid : SosGuid)
    (querySql : Option CString) (duration : Double) : Option ResultsTable :=
  match querySql.bind prepare with
  | none => some (ResultsTable.init.label queryGuid querySql)
  | some statement => do
    let results ← executeStatement statement ResultsTable.init
    some ({ results with execDuration := duration }.label queryGuid querySql)

/-- **A table is the statement's**: counts, names and cells, `NULL` as its text, and
nothing besides. -/
structure ResultsTable.IsOf (t : ResultsTable) (statement : SqlStatement) : Prop where
  shape : t.Shape
  colCount : t.colCount = statement.columns.length
  rowCount : t.rowCount = statement.rows.length
  name : ∀ col, t.name col = statement.columns[col]?
  entry : ∀ row col, t.entry row col =
    (statement.rows[row]?.bind (·[col]?)).map (·.getD nullstr)

/-- **The statement leaves room** for the growths in the range of `int`. -/
structure SqlStatement.IntRoom (statement : SqlStatement) : Prop where
  columns : statement.columns.length + 2 * sosaDefaultResultColMax ≤ intMax
  rows : statement.rows.length + 2 * sosaDefaultResultRowMax ≤ intMax

section

variable {t t' : ResultsTable} {cols rows col row : ℕ}

/-- The arrays reach at most a default amount beyond these indices. -/
structure ResultsTable.Within (t : ResultsTable) (cols rows : ℕ) : Prop where
  colMax_le : t.colMax ≤ cols + sosaDefaultResultColMax
  rowMax_le : t.rowMax ≤ rows + sosaDefaultResultRowMax

namespace ResultsTable

/-- A growth to an index goes at most a default amount beyond it. -/
theorem Within.grown {newColAsk newRowAsk : ℕ} (h : t.Within cols rows)
    (hgrown : t.Grown newColAsk newRowAsk t') (hcol : newColAsk ≤ cols) (hrow : newRowAsk ≤ rows) :
    t'.Within cols rows := by
  have hcols := h.colMax_le
  have hrows := h.rowMax_le
  constructor
  · rw [hgrown.colMax]
    split_ifs <;> omega
  · rw [hgrown.rowMax]
    split_ifs <;> omega

/-- A growth that is not needed is none. -/
theorem growIf_false (newColAsk newRowAsk : ℕ) : t.growIf false newColAsk newRowAsk = some t := rfl

/-- A name that is put inside the arrays leaves them at their size. -/
theorem Within.putName {name : CString} (h : t.Within cols rows) (hcol : col < t.colMax)
    (hput : t.putName col name = some t') : t'.Within cols rows ∧ t'.colMax = t.colMax := by
  rw [ResultsTable.putName, decide_eq_false (not_le.mpr hcol), growIf_false, Option.bind_eq_bind,
    Option.bind_some] at hput
  obtain ⟨colNames, -, hset⟩ := Option.bind_eq_some_iff.mp hput
  cases hset
  exact ⟨⟨h.colMax_le, h.rowMax_le⟩, rfl⟩

theorem Within.putNames {names : List CString} (h : t.Within cols rows)
    (hcol : col + names.length ≤ t.colMax) (hput : putNames col names t = some t') :
    t'.Within cols rows := by
  induction names generalizing t col with
  | nil =>
      cases hput
      exact h
  | cons name names ih =>
      rw [List.length_cons] at hcol
      obtain ⟨first, hfirst, hrest⟩ := Option.bind_eq_some_iff.mp hput
      obtain ⟨hwithin, hmax⟩ := h.putName (by omega) hfirst
      exact ih hwithin (by omega) hrest

/-- So does a value. -/
theorem Within.put {val : Option CString} (h : t.Within cols rows) (hcol : col < t.colMax)
    (hrow : row < t.rowMax) (hput : t.put col row val = some t') :
    t'.Within cols rows ∧ t'.colMax = t.colMax ∧ t'.rowMax = t.rowMax := by
  have hinside : ¬ (col ≥ t.colMax ∨ row ≥ t.rowMax) := by omega
  rw [ResultsTable.put, decide_eq_false hinside, growIf_false, Option.bind_eq_bind,
    Option.bind_some] at hput
  obtain ⟨data, -, hset⟩ := Option.bind_eq_some_iff.mp hput
  cases hset
  exact ⟨⟨h.colMax_le, h.rowMax_le⟩, rfl, rfl⟩

theorem Within.putRow {vals : List (Option CString)} (h : t.Within cols rows)
    (hcol : col + vals.length ≤ t.colMax) (hrow : row < t.rowMax)
    (hput : putRow row col vals t = some t') : t'.Within cols rows := by
  induction vals generalizing t col with
  | nil =>
      cases hput
      exact h
  | cons val vals ih =>
      rw [List.length_cons] at hcol
      obtain ⟨first, hfirst, hrest⟩ := Option.bind_eq_some_iff.mp hput
      obtain ⟨hwithin, hcolMax, hrowMax⟩ := h.put (by omega) hrow hfirst
      exact ih hwithin (by omega) (by omega) hrest

end ResultsTable

end

section

variable {t : ResultsTable} {c n : ℕ} {rows rest : List (List (Option CString))}

/-- **The rows behind the first ones.** Each is grown to before it is put, and its
index never gets further than to the end of the table. -/
theorem stepRows_spec (h : t.HoldsRows rows) (hwidth : ∀ vals ∈ rest, vals.length = c)
    (hcol : c ≤ t.colMax) (hcolCount : t.colCount = c) (hwithin : t.Within c n)
    (hn : rows.length + rest.length ≤ n) :
    ∃ t', stepRows c rows.length rest t = some t' ∧ t'.HoldsRows (rows ++ rest) ∧
      t'.name = t.name ∧ t'.colCount = c ∧ t'.Within c n := by
  induction rest generalizing t rows with
  | nil => exact ⟨t, rfl, by rwa [List.append_nil], rfl, hcolCount, hwithin⟩
  | cons vals rest ih =>
      rw [List.length_cons] at hn
      have hlen : vals.length = c := hwidth vals List.mem_cons_self
      have hpos : 0 < sosaDefaultResultRowMax := by decide
      have hrowCount := h.rowCount
      have hle := h.rowCount_le
      obtain ⟨grown, hgrow, hgrown⟩ := h.shape.growTo c rows.length
      have hcolMax := hgrown.colMax_le
      have hreached := hgrown.row_lt_iff.mpr (show rows.length < _ by omega)
      obtain ⟨put, hput, hvals, hrows⟩ := (h.wider hgrown.toWider).putRow vals
        (by omega) (fun _ => hreached)
      have hcolMax' := hvals.colMax_le
      have hwithin' : put.Within c n := (hwithin.grown hgrown le_rfl (by omega)).putRow
        (by omega) hreached hput
      have hcounted : put.colCount = c := by
        rw [hvals.colCount, hgrown.colCount]
        split_ifs <;> omega
      -- the count of rows is set once more behind the puts
      obtain ⟨t', ht', hrows', hname, hcolCount', hmax⟩ := ih hrows
        (fun vals' hvals' => hwidth vals' (List.mem_cons_of_mem vals hvals'))
        (show c ≤ put.colMax by omega) hcounted ⟨hwithin'.colMax_le, hwithin'.rowMax_le⟩
        (by rw [List.length_append, List.length_singleton]; omega)
      refine ⟨t', ?_, ?_, hname.trans (hvals.name.trans hgrown.name), hcolCount', hmax⟩
      · rw [List.length_append, List.length_singleton] at ht'
        rw [stepRows, hgrow, Option.bind_eq_bind, Option.bind_some, hput]
        exact ht'
      · rwa [List.append_assoc, List.singleton_append] at hrows'

end

/-- A table as it is made is empty. -/
theorem ResultsTable.entry_init (row col : ℕ) : ResultsTable.init.entry row col = none :=
  (TableRun.holdsRows_initSized _ _).entry row col

theorem ResultsTable.name_init (col : ℕ) : ResultsTable.init.name col = none :=
  Grid.place_replicate

/-- **A statement is transferred completely**, whatever its width and length, and no
access on the way is outside the table. -/
theorem executeStatement_spec (statement : SqlStatement) :
    ∃ t, executeStatement statement ResultsTable.init = some t ∧ t.IsOf statement ∧
      t.Within statement.columns.length (max statement.rows.length sosaDefaultResultRowMax) := by
  have hpos : 0 < sosaDefaultResultRowMax := by decide
  have hshape : ({ ResultsTable.init with colCount := statement.columns.length } :
      ResultsTable).Shape := ⟨List.length_replicate, (ResultsTable.shape_initSized _ _).data⟩
  obtain ⟨grown, hgrow, hgrown⟩ := hshape.growTo statement.columns.length
    ResultsTable.init.rowMax
  -- the first growth reaches the columns, or one less than all of them
  have hcols : statement.columns.length ≤ grown.colMax := by
    rw [hgrown.colMax]
    split_ifs with hlt
    · exact hlt.le
    · exact le_max_left _ _
  have hfits : 0 + statement.columns.length ≤ grown.colMax + sosaDefaultResultColMax := by omega
  obtain ⟨named, hnamed, hnames⟩ := hgrown.shape.putNames hfits
  have hcolMax := hnames.colMax_le
  have hcolCount : named.colCount = statement.columns.length :=
    hnames.colCount.trans hgrown.colCount
  have hrowCount : named.rowCount = 0 := hnames.rowCount.trans hgrown.rowCount
  have hempty : named.HoldsRows [] := by
    refine ⟨hnames.shape, hrowCount, by omega, by omega,
      fun _ hvals => absurd hvals List.not_mem_nil, fun i j => ?_⟩
    rw [hnames.entry, hgrown.entry]
    exact ResultsTable.entry_init i j
  have hwithin : named.Within statement.columns.length
      (max statement.rows.length sosaDefaultResultRowMax) := by
    refine ResultsTable.Within.putNames (.grown ⟨?_, ?_⟩ hgrown le_rfl ?_) (by omega) hnamed
    · exact Nat.le_add_left _ _
    · exact Nat.le_add_left _ _
    · exact le_max_right _ _
  obtain ⟨t, ht, hrows, hname, hcols', hmax⟩ := stepRows_spec hempty statement.width (by omega)
    hcolCount hwithin (by rw [List.length_nil]; omega)
  refine ⟨t, ?_, ⟨hrows.shape, hcols', hrows.rowCount, fun col => ?_, hrows.entry⟩, hmax⟩
  · unfold executeStatement
    dsimp only
    rw [hgrow, Option.bind_eq_bind, Option.bind_some, hnamed]
    exact ht
  · rw [hname, hnames.name, hgrown.name, Nat.sub_zero]
    split_ifs with hin
    · rfl
    · rw [List.getElem?_eq_none (by omega)]
      exact ResultsTable.name_init col

/-- **The table of every query that was prepared** is the statement's, and no sum that was
computed for a growth on the way is beyond an `int` if the statement leaves the room. -/
theorem statementTable_complete (prepare : CString → Option SqlStatement) (queryGuid : SosGuid)
    (querySql : CString) (duration : Double) (statement : SqlStatement)
    (hprepare : prepare querySql = some statement) :
    ∃ t, sosdDbHandleSosaQuery prepare queryGuid (some querySql) duration = some t ∧
      t.IsOf statement ∧ (statement.IntRoom → t.GrowthIsInt) := by
  obtain ⟨t, ht, hof, hwithin⟩ := executeStatement_spec statement
  refine ⟨{ t with execDuration := duration }.label queryGuid (some querySql), ?_,
    ⟨⟨hof.shape.names, hof.shape.data⟩, hof.colCount, hof.rowCount, hof.name, hof.entry⟩,
    fun hroom => ⟨?_, ?_⟩⟩
  · unfold sosdDbHandleSosaQuery
    rw [Option.bind_some, hprepare]
    dsimp only
    rw [ht]
    rfl
  · have hcols := hwithin.colMax_le
    have hint := hroom.columns
    show t.colMax + _ ≤ _
    omega
  · have hrows := hwithin.rowMax_le
    have hint := hroom.rows
    have hfirst : 3 * sosaDefaultResultRowMax ≤ intMax := by decide
    show t.rowMax + _ ≤ _
    omega

/-- A statement of one column with a text and a `NULL`. -/
def twoRows : SqlStatement where
  columns := [nameX]
  rows := [[some nameX], [none]]
  width := by simp

/-- **Its table.** -/
theorem twoRows_complete : ∃ t,
    sosdDbHandleSosaQuery (fun _ => some twoRows) 7 (some nameX) 0 = some t ∧ t.IsOf twoRows ∧
      t.GrowthIsInt := by
  obtain ⟨t, ht, hof, hint⟩ :=
    statementTable_complete (fun _ => some twoRows) 7 nameX 0 twoRows rfl
  exact ⟨t, ht, hof, hint ⟨by decide, by decide⟩⟩

end SosFlow
