import SosFlow.Analytics.Results
import SosFlow.Lib.Grid
import Mathlib.Order.Bounds.Basic

/-!
# The arrays of a results table

`SOSA_results` allocates `row_max` rows of `col_max` cells and as many
names as columns, and reallocates them when a cell or a name is put outside.
Here the arrays are lists, an access outside of one is undefined, and
`ResultsTable.object` is the table that the other modules use.

A growth is by at least the default amounts, to the index that was asked for
and not to one more. So an index that far outside is outside still
(`put_outside`). A wipe visits the counted cells and columns, and a name
does not count its column.
-/

namespace SosFlow

open Grid (place cell assign assignCell eachBelow extend Rect)

/-- **A `SOSA_results` and its arrays.** The maxima and counts are `int`s in the source;
`ResultsTable.GrowthIsInt` says that the sums of a growth are in their range. -/
structure ResultsTable where
  querySql : Option CString
  queryGuid : SosGuid
  execDuration : Double
  colMax : ℕ
  colCount : ℕ
  colNames : List (Option CString)
  rowMax : ℕ
  rowCount : ℕ
  data : List (List (Option CString))

namespace ResultsTable

/-- `SOSA_results_init_sized`. -/
def initSized (rowsIncoming colsIncoming : ℕ) : ResultsTable where
  querySql := none
  queryGuid := -1
  execDuration := 0
  colMax := colsIncoming
  colCount := 0
  colNames := List.replicate colsIncoming none
  rowMax := rowsIncoming
  rowCount := 0
  data := List.replicate rowsIncoming (List.replicate colsIncoming none)

/-- `SOSA_results_init`. -/
def init : ResultsTable := initSized sosaDefaultResultRowMax sosaDefaultResultColMax

variable (t : ResultsTable)

/-- `data[row][col]`. -/
def entry (row col : ℕ) : Option CString := cell t.data row col

/-- `col_names[col]`. -/
def name (col : ℕ) : Option CString := place t.colNames col

/-- The columns that are added, in the names and in every row. -/
def growCols (newColAsk newColMax : ℕ) : Option ResultsTable :=
  if newColAsk ≥ t.colMax then do
    let data ← eachBelow (fun line => some (extend line t.colMax newColMax)) t.rowMax t.data
    some { t with
      colMax := newColMax
      colNames := extend t.colNames t.colMax newColMax
      data := data }
  else some t

/-- The rows that are added. -/
def growRows (newRowAsk newRowMax : ℕ) : ResultsTable :=
  if newRowAsk ≥ t.rowMax then
    { t with
      rowMax := newRowMax
      data := t.data.take t.rowMax ++
        List.replicate (newRowMax - t.rowMax) (List.replicate t.colMax none) }
  else t

/-- **`SOSA_results_grow_to`.** -/
def growTo (newColAsk newRowAsk : ℕ) : Option ResultsTable :=
  if newColAsk < t.colMax ∧ newRowAsk < t.rowMax then some t
  else do
    let newColMax := max newColAsk (t.colMax + sosaDefaultResultColMax)
    let newRowMax := max newRowAsk (t.rowMax + sosaDefaultResultRowMax)
    let grown ← t.growCols newColAsk newColMax
    some (grown.growRows newRowAsk newRowMax)

/-- A growth that is called only where it is `needed`. -/
def growIf (needed : Bool) (newColAsk newRowAsk : ℕ) : Option ResultsTable :=
  if needed then t.growTo newColAsk newRowAsk else some t

/-- **`SOSA_results_put`.** -/
def put (col row : ℕ) (val : Option CString) : Option ResultsTable := do
  let t ← t.growIf (col ≥ t.colMax ∨ row ≥ t.rowMax) col row
  let data ← assignCell t.data row col (some (val.getD nullstr))
  some { t with
    rowCount := max t.rowCount (row + 1)
    colCount := max t.colCount (col + 1)
    data := data }

/-- **`SOSA_results_put_name`.** -/
def putName (col : ℕ) (name : CString) : Option ResultsTable := do
  let t ← t.growIf (col ≥ t.colMax) col 0
  let colNames ← assign t.colNames col (some name)
  some { t with colNames := colNames }

/-- **`SOSA_results_wipe`.** -/
def wipe : Option ResultsTable := do
  let data ← eachBelow (eachBelow (fun _ => some none) t.colCount) t.rowCount t.data
  let colNames ← eachBelow (fun _ => some none) t.colCount t.colNames
  some { t with
    queryGuid := -1
    querySql := none
    data := data
    colNames := colNames
    colCount := 0
    rowCount := 0 }

/-- **`SOSA_results_label`.** -/
def label (guid : SosGuid) (sql : Option CString) : ResultsTable :=
  { t with queryGuid := guid, querySql := some (sql.getD labelNone) }

/-- Names put into one column after the other. -/
def putNames : ℕ → List CString → ResultsTable → Option ResultsTable
  | _, [], t => some t
  | col, name :: names, t => (t.putName col name).bind (putNames (col + 1) names)

/-- Values put into one column of a row after the other. -/
def putRow (row : ℕ) : ℕ → List (Option CString) → ResultsTable → Option ResultsTable
  | _, [], t => some t
  | col, val :: vals, t => (t.put col row val).bind (putRow row (col + 1) vals)

/-- **The shape of the arrays**: `row_max` rows of `col_max` cells, and `col_max`
names. -/
structure Shape : Prop where
  names : t.colNames.length = t.colMax
  data : Rect t.data t.rowMax t.colMax

/-- **What is read of a table**, without its arrays. -/
def object : ResultsObject where
  querySql := t.querySql
  queryGuid := t.queryGuid
  execDuration := t.execDuration
  colMax := t.colMax
  colCount := t.colCount
  colNames := t.name
  rowMax := t.rowMax
  rowCount := t.rowCount
  data := t.entry

/-! ## Growth -/

/-- **More places, and nothing else**: the arrays have a shape again, and what is read
is what was read. -/
structure Wider (t' : ResultsTable) : Prop where
  shape : t'.Shape
  colMax_le : t.colMax ≤ t'.colMax
  rowMax_le : t.rowMax ≤ t'.rowMax
  entry : t'.entry = t.entry
  name : t'.name = t.name
  rest : { t' with colMax := t.colMax, rowMax := t.rowMax, colNames := t.colNames,
                   data := t.data } = t

/-- **What a growth does**: it reaches what was asked for in steps of at least the
default amounts. -/
structure Grown (newColAsk newRowAsk : ℕ) (t' : ResultsTable) : Prop extends Wider t t' where
  colMax : t'.colMax = if newColAsk < t.colMax then t.colMax
    else max newColAsk (t.colMax + sosaDefaultResultColMax)
  rowMax : t'.rowMax = if newRowAsk < t.rowMax then t.rowMax
    else max newRowAsk (t.rowMax + sosaDefaultResultRowMax)

variable {t}

theorem shape_initSized (rowsIncoming colsIncoming : ℕ) :
    (initSized rowsIncoming colsIncoming).Shape where
  names := List.length_replicate
  data := ⟨List.length_replicate, fun line hline => by
    rw [List.eq_of_mem_replicate hline, List.length_replicate, initSized]⟩

theorem Shape.wider_self (h : t.Shape) : t.Wider t := ⟨h, le_rfl, le_rfl, rfl, rfl, rfl⟩

section

variable {newColAsk newRowAsk : ℕ} {t' : ResultsTable}

theorem Wider.colCount (h : t.Wider t') : t'.colCount = t.colCount := by
  have hfield := congrArg ResultsTable.colCount h.rest
  exact hfield

theorem Wider.rowCount (h : t.Wider t') : t'.rowCount = t.rowCount := by
  have hfield := congrArg ResultsTable.rowCount h.rest
  exact hfield

/-- What was asked for is reached where it is less than the default amount away. -/
theorem Grown.col_lt_iff (h : t.Grown newColAsk newRowAsk t') :
    newColAsk < t'.colMax ↔ newColAsk < t.colMax + sosaDefaultResultColMax := by
  rw [h.colMax]
  split_ifs with hlt
  · exact iff_of_true hlt (by omega)
  · omega

theorem Grown.row_lt_iff (h : t.Grown newColAsk newRowAsk t') :
    newRowAsk < t'.rowMax ↔ newRowAsk < t.rowMax + sosaDefaultResultRowMax := by
  rw [h.rowMax]
  split_ifs with hlt
  · exact iff_of_true hlt (by omega)
  · omega

/-- Nothing is grown. -/
theorem Shape.grown_self (h : t.Shape) (hcol : newColAsk < t.colMax) (hrow : newRowAsk < t.rowMax) :
    t.Grown newColAsk newRowAsk t where
  toWider := h.wider_self
  colMax := (if_pos hcol).symm
  rowMax := (if_pos hrow).symm

end

/-- **A growth is defined on every shape.** -/
theorem Shape.growTo (h : t.Shape) (newColAsk newRowAsk : ℕ) :
    ∃ t', t.growTo newColAsk newRowAsk = some t' ∧ t.Grown newColAsk newRowAsk t' := by
  unfold ResultsTable.growTo
  by_cases hfits : newColAsk < t.colMax ∧ newRowAsk < t.rowMax
  · exact ⟨t, if_pos hfits, h.grown_self hfits.1 hfits.2⟩
  rw [if_neg hfits]
  dsimp only
  generalize hcolMax : max newColAsk (t.colMax + sosaDefaultResultColMax) = newColMax
  generalize hrowMax : max newRowAsk (t.rowMax + sosaDefaultResultRowMax) = newRowMax
  -- first the columns, of the rows there are
  have hcols : ∃ wide, t.growCols newColAsk newColMax = some wide ∧ wide.Shape ∧
      wide.entry = t.entry ∧ wide.name = t.name ∧
      { wide with colMax := t.colMax, colNames := t.colNames, data := t.data } = t ∧
      wide.colMax = if newColAsk < t.colMax then t.colMax else newColMax := by
    unfold growCols
    by_cases hcol : newColAsk < t.colMax
    · rw [if_neg (not_le.mpr hcol), if_pos hcol]
      exact ⟨t, rfl, h, rfl, rfl, rfl, rfl⟩
    · rw [if_pos (not_lt.mp hcol), if_neg hcol,
        Grid.eachBelow_all (f := (extend · t.colMax newColMax)) h.data.rows.symm]
      refine ⟨_, rfl, ⟨?_, ?_⟩, ?_, ?_, rfl, rfl⟩
      · exact Grid.length_extend h.names (by omega)
      · exact h.data.widen (by omega)
      · funext row col
        exact h.data.cell_widen newColMax
      · funext col
        exact Grid.place_extend h.names
  obtain ⟨wide, hwide, hshape, hat, hname, hrest, hmax⟩ := hcols
  have hsame : wide.rowMax = t.rowMax := by
    have hfield := congrArg ResultsTable.rowMax hrest
    exact hfield
  refine ⟨wide.growRows newRowAsk newRowMax, by rw [hwide]; rfl, ?_⟩
  have hle : t.colMax ≤ wide.colMax := by
    rw [hmax]
    split_ifs <;> omega
  rw [← hcolMax] at hmax
  -- then the rows, of the columns there are now
  unfold growRows
  by_cases hrow : newRowAsk < t.rowMax
  · rw [if_neg (by omega)]
    refine ⟨⟨hshape, hle, hsame.ge, hat, hname, ?_⟩, hmax, ?_⟩
    · rw [← hrest, hsame]
    · rw [if_pos hrow, hsame]
  · rw [if_pos (by omega)]
    refine ⟨⟨⟨hshape.names, hshape.data.lengthen (by omega)⟩, hle, ?_, ?_, hname, ?_⟩, hmax, ?_⟩
    · show t.rowMax ≤ newRowMax
      omega
    · rw [← hat]
      funext row col
      exact hshape.data.cell_lengthen newRowMax
    · rw [← hrest, hsame]
    · rw [if_neg hrow, hrowMax]

/-! ## Puts, names and wipes -/

variable {col row : ℕ}

/-- The growth of a put. -/
theorem Shape.growIf_put (h : t.Shape) (col row : ℕ) :
    ∃ t', t.growIf (col ≥ t.colMax ∨ row ≥ t.rowMax) col row = some t' ∧ t.Grown col row t' := by
  unfold growIf
  by_cases hneeded : col ≥ t.colMax ∨ row ≥ t.rowMax
  · rw [if_pos (decide_eq_true hneeded)]
    exact h.growTo col row
  · rw [if_neg (by rw [decide_eq_false hneeded]; exact Bool.false_ne_true)]
    exact ⟨t, rfl, h.grown_self (by omega) (by omega)⟩

/-- The growth of a name, which asks for no row. -/
theorem Shape.growIf_putName (h : t.Shape) (col : ℕ) :
    ∃ t', t.growIf (col ≥ t.colMax) col 0 = some t' ∧ t.Wider t' ∧
      (col < t'.colMax ↔ col < t.colMax + sosaDefaultResultColMax) := by
  unfold growIf
  by_cases hneeded : col ≥ t.colMax
  · rw [if_pos (decide_eq_true hneeded)]
    obtain ⟨t', ht', hgrown⟩ := h.growTo col 0
    exact ⟨t', ht', hgrown.toWider, hgrown.col_lt_iff⟩
  · rw [if_neg (by rw [decide_eq_false hneeded]; exact Bool.false_ne_true)]
    exact ⟨t, rfl, h.wider_self, iff_of_true (by omega) (by omega)⟩

/-- **What a put leaves.** -/
structure HasPut (t : ResultsTable) (col row : ℕ) (val : Option CString) (t' : ResultsTable) :
    Prop where
  shape : t'.Shape
  entry : ∀ i j, t'.entry i j =
    if i = row ∧ j = col then some (val.getD nullstr) else t.entry i j
  name : t'.name = t.name
  rowCount : t'.rowCount = max t.rowCount (row + 1)
  colCount : t'.colCount = max t.colCount (col + 1)
  colMax_le : t.colMax ≤ t'.colMax
  rowMax_le : t.rowMax ≤ t'.rowMax
  inside : row < t'.rowMax ∧ col < t'.colMax

/-- **A put less than the default amounts outside** is defined. -/
theorem Shape.put (h : t.Shape) (hcol : col < t.colMax + sosaDefaultResultColMax)
    (hrow : row < t.rowMax + sosaDefaultResultRowMax) (val : Option CString) :
    ∃ t', t.put col row val = some t' ∧ t.HasPut col row val t' := by
  obtain ⟨grown, hgrow, hgrown⟩ := h.growIf_put col row
  have hcol' := hgrown.col_lt_iff.mpr hcol
  have hrow' := hgrown.row_lt_iff.mpr hrow
  obtain ⟨data, hdata, hrect, hcell⟩ :=
    hgrown.shape.data.assignCell_eq hrow' hcol' (some (val.getD nullstr))
  refine ⟨{ grown with rowCount := max grown.rowCount (row + 1), data := data,
                       colCount := max grown.colCount (col + 1) }, ?_,
    ⟨⟨hgrown.shape.names, hrect⟩, ?_, hgrown.name, ?_, ?_, hgrown.colMax_le, hgrown.rowMax_le,
      hrow', hcol'⟩⟩
  · rw [ResultsTable.put, hgrow, Option.bind_eq_bind, Option.bind_some, hdata]
    rfl
  · intro i j
    rw [← hgrown.entry]
    exact hcell i j
  · rw [← hgrown.rowCount]
  · rw [← hgrown.colCount]

/-- **A put further outside is not.** -/
theorem Shape.put_outside (h : t.Shape) (hout : ¬ (col < t.colMax + sosaDefaultResultColMax ∧
    row < t.rowMax + sosaDefaultResultRowMax)) (val : Option CString) : t.put col row val = none := by
  obtain ⟨grown, hgrow, hgrown⟩ := h.growIf_put col row
  rw [← hgrown.col_lt_iff, ← hgrown.row_lt_iff] at hout
  have hdata : assignCell grown.data row col (some (val.getD nullstr)) = none :=
    hgrown.shape.data.assignCell_outside (fun hin => hout ⟨hin.2, hin.1⟩) _
  rw [ResultsTable.put, hgrow, Option.bind_eq_bind, Option.bind_some, hdata]
  rfl

/-- **What a name leaves.** -/
structure HasName (t : ResultsTable) (col : ℕ) (name : CString) (t' : ResultsTable) : Prop where
  shape : t'.Shape
  entry : t'.entry = t.entry
  name : ∀ j, t'.name j = if j = col then some name else t.name j
  rowCount : t'.rowCount = t.rowCount
  colCount : t'.colCount = t.colCount
  colMax_le : t.colMax ≤ t'.colMax
  rowMax_le : t.rowMax ≤ t'.rowMax
  inside : col < t'.colMax

theorem Shape.putName (h : t.Shape) (hcol : col < t.colMax + sosaDefaultResultColMax)
    (name : CString) : ∃ t', t.putName col name = some t' ∧ t.HasName col name t' := by
  obtain ⟨grown, hgrow, hwider, hiff⟩ := h.growIf_putName col
  have hlt : col < grown.colNames.length := by
    rw [hwider.shape.names]
    exact hiff.mpr hcol
  have hset : assign grown.colNames col (some name) = some (grown.colNames.set col (some name)) :=
    if_pos hlt
  refine ⟨{ grown with colNames := grown.colNames.set col (some name) }, ?_,
    ⟨⟨?_, hwider.shape.data⟩, hwider.entry, ?_, hwider.rowCount, hwider.colCount,
      hwider.colMax_le, hwider.rowMax_le, hiff.mpr hcol⟩⟩
  · rw [ResultsTable.putName, hgrow, Option.bind_eq_bind, Option.bind_some, hset]
    rfl
  · exact List.length_set.trans hwider.shape.names
  · intro j
    rw [← hwider.name]
    exact Grid.place_set hlt

theorem Shape.putName_outside (h : t.Shape) (hout : ¬ col < t.colMax + sosaDefaultResultColMax)
    (name : CString) : t.putName col name = none := by
  obtain ⟨grown, hgrow, hwider, hiff⟩ := h.growIf_putName col
  have hge : ¬ col < grown.colNames.length := by
    rw [hwider.shape.names, hiff]
    exact hout
  have hset : assign grown.colNames col (some name) = none := if_neg hge
  rw [ResultsTable.putName, hgrow, Option.bind_eq_bind, Option.bind_some, hset]
  rfl

/-- **What a wipe leaves**: the cells and the names it did not count. -/
structure Wiped (t t' : ResultsTable) : Prop where
  shape : t'.Shape
  entry : ∀ i j, t'.entry i j = if i < t.rowCount ∧ j < t.colCount then none else t.entry i j
  name : ∀ j, t'.name j = if j < t.colCount then none else t.name j
  rowCount : t'.rowCount = 0
  colCount : t'.colCount = 0
  colMax : t'.colMax = t.colMax
  rowMax : t'.rowMax = t.rowMax
  labels : t'.querySql = none ∧ t'.queryGuid = -1 ∧ t'.execDuration = t.execDuration

theorem Shape.wipe (h : t.Shape) (hrows : t.rowCount ≤ t.rowMax) (hcols : t.colCount ≤ t.colMax) :
    ∃ t', t.wipe = some t' ∧ t.Wiped t' := by
  obtain ⟨data, hdata, hrect, hcell⟩ := h.data.clear hrows hcols
  have hle : t.colCount ≤ t.colNames.length := h.names.symm ▸ hcols
  have hnames := Grid.eachBelow_eq (f := fun _ : Option CString => none) hle
  refine ⟨{ t with queryGuid := -1, querySql := none, data := data, colCount := 0, rowCount := 0,
                   colNames := (t.colNames.take t.colCount).map (fun _ => none) ++
                     t.colNames.drop t.colCount }, ?_,
    ⟨⟨?_, hrect⟩, hcell, fun j => Grid.place_below hle, rfl, rfl, rfl, rfl, rfl, rfl, rfl⟩⟩
  · rw [ResultsTable.wipe, hdata, Option.bind_eq_bind, Option.bind_some, hnames]
    rfl
  · show List.length (_ ++ _) = _
    rw [List.length_append, List.length_map, ← List.length_append, List.take_append_drop]
    exact h.names

/-! ## Rows of puts -/

/-- **What names in a row of columns leave.** -/
structure HasNames (t : ResultsTable) (col : ℕ) (names : List CString) (t' : ResultsTable) :
    Prop where
  shape : t'.Shape
  entry : t'.entry = t.entry
  name : ∀ j, t'.name j = if col ≤ j ∧ j < col + names.length then names[j - col]? else t.name j
  rowCount : t'.rowCount = t.rowCount
  colCount : t'.colCount = t.colCount
  colMax_le : t.colMax ≤ t'.colMax
  rowMax_le : t.rowMax ≤ t'.rowMax

theorem Shape.putNames (h : t.Shape) {names : List CString}
    (hcol : col + names.length ≤ t.colMax + sosaDefaultResultColMax) :
    ∃ t', putNames col names t = some t' ∧ t.HasNames col names t' := by
  induction names generalizing t col with
  | nil =>
      refine ⟨t, rfl, ⟨h, rfl, fun j => ?_, rfl, rfl, le_rfl, le_rfl⟩⟩
      rw [List.length_nil, if_neg (by omega)]
  | cons name names ih =>
      rw [List.length_cons] at hcol
      obtain ⟨first, hfirst, hname⟩ := h.putName (show col < _ by omega) name
      have hle := hname.colMax_le
      have hcol' : col + 1 + names.length ≤ first.colMax + sosaDefaultResultColMax := by omega
      obtain ⟨t', ht', hnames⟩ := ih hname.shape hcol'
      refine ⟨t', Option.bind_eq_some_iff.mpr ⟨first, hfirst, ht'⟩, ⟨hnames.shape,
        hnames.entry.trans hname.entry, fun j => ?_, hnames.rowCount.trans hname.rowCount,
        hnames.colCount.trans hname.colCount, hle.trans hnames.colMax_le,
        hname.rowMax_le.trans hnames.rowMax_le⟩⟩
      rw [hnames.name, hname.name, List.length_cons]
      by_cases hj : j = col
      · rw [if_neg (by omega), if_pos hj, if_pos (by omega), hj, Nat.sub_self, List.getElem?_cons_zero]
      by_cases hin : col + 1 ≤ j ∧ j < col + 1 + names.length
      · obtain ⟨k, rfl⟩ : ∃ k, j = col + 1 + k := ⟨j - (col + 1), by omega⟩
        rw [if_pos hin, if_pos (by omega), Nat.add_sub_cancel_left,
          show col + 1 + k - col = k + 1 by omega, List.getElem?_cons_succ]
      · rw [if_neg hin, if_neg hj, if_neg (by omega)]

/-- **What values in a row of columns leave.** -/
structure HasRow (t : ResultsTable) (row col : ℕ) (vals : List (Option CString))
    (t' : ResultsTable) : Prop where
  shape : t'.Shape
  entry : ∀ i j, t'.entry i j = if i = row ∧ col ≤ j ∧ j < col + vals.length
    then vals[j - col]?.map (·.getD nullstr) else t.entry i j
  name : t'.name = t.name
  colCount : t'.colCount = if vals = [] then t.colCount else max t.colCount (col + vals.length)
  rowCount : t'.rowCount = if vals = [] then t.rowCount else max t.rowCount (row + 1)
  colMax_le : t.colMax ≤ t'.colMax
  rowMax_le : t.rowMax ≤ t'.rowMax
  inside : vals ≠ [] → row < t'.rowMax ∧ col + vals.length ≤ t'.colMax

theorem Shape.putRow (h : t.Shape) {vals : List (Option CString)}
    (hcol : col + vals.length ≤ t.colMax + sosaDefaultResultColMax)
    (hrow : row < t.rowMax + sosaDefaultResultRowMax) :
    ∃ t', putRow row col vals t = some t' ∧ t.HasRow row col vals t' := by
  induction vals generalizing t col with
  | nil =>
      refine ⟨t, rfl, ⟨h, fun i j => ?_, rfl, (if_pos rfl).symm, (if_pos rfl).symm, le_rfl, le_rfl,
        fun hne => absurd rfl hne⟩⟩
      rw [List.length_nil, if_neg (by omega)]
  | cons val vals ih =>
      rw [List.length_cons] at hcol
      obtain ⟨first, hfirst, hput⟩ := h.put (show col < _ by omega) hrow val
      have hle := hput.colMax_le
      have hle' := hput.rowMax_le
      have hcol' : col + 1 + vals.length ≤ first.colMax + sosaDefaultResultColMax := by omega
      obtain ⟨t', ht', hvals⟩ := ih hput.shape hcol' (by omega)
      have hcolCount : t'.colCount = max t.colCount (col + (vals.length + 1)) := by
        rw [hvals.colCount, hput.colCount]
        split_ifs with hnil
        · rw [hnil, List.length_nil]
        · omega
      have hrowCount : t'.rowCount = max t.rowCount (row + 1) := by
        rw [hvals.rowCount, hput.rowCount]
        split_ifs <;> omega
      refine ⟨t', Option.bind_eq_some_iff.mpr ⟨first, hfirst, ht'⟩, ⟨hvals.shape, fun i j => ?_,
        hvals.name.trans hput.name, ?_, ?_, hle.trans hvals.colMax_le,
        hle'.trans hvals.rowMax_le, fun _ => ⟨lt_of_lt_of_le hput.inside.1 hvals.rowMax_le, ?_⟩⟩⟩
      · rw [hvals.entry, hput.entry, List.length_cons]
        by_cases hij : i = row ∧ j = col
        · rw [if_neg (by omega), if_pos hij, if_pos (by omega), hij.2, Nat.sub_self,
            List.getElem?_cons_zero, Option.map_some]
        by_cases hin : i = row ∧ col + 1 ≤ j ∧ j < col + 1 + vals.length
        · obtain ⟨k, rfl⟩ : ∃ k, j = col + 1 + k := ⟨j - (col + 1), by omega⟩
          rw [if_pos hin, if_pos (by omega), Nat.add_sub_cancel_left,
            show col + 1 + k - col = k + 1 by omega, List.getElem?_cons_succ]
        · rw [if_neg hin, if_neg hij, if_neg (by omega)]
      · rw [if_neg (List.cons_ne_nil val vals), hcolCount, List.length_cons]
      · rw [if_neg (List.cons_ne_nil val vals), hrowCount]
      · have hlast := hput.inside.2
        have hcolMax := hvals.colMax_le
        by_cases hnil : vals = []
        · rw [hnil, List.length_cons, List.length_nil]
          omega
        · have hin := (hvals.inside hnil).2
          rw [List.length_cons]
          omega

/-! ## A table of rows -/

/-- **No cell is outside of what is counted**, and what is counted is inside of the
arrays. -/
structure Sound (t : ResultsTable) : Prop where
  shape : t.Shape
  rowCount_le : t.rowCount ≤ t.rowMax
  colCount_le : t.colCount ≤ t.colMax
  filled : ∀ i j, ¬ (i < t.rowCount ∧ j < t.colCount) → t.entry i j = none

/-- **The cells are those of some rows**, `NULL` as its text, and there are no others. -/
structure HoldsRows (t : ResultsTable) (rows : List (List (Option CString))) : Prop where
  shape : t.Shape
  rowCount : t.rowCount = rows.length
  rowCount_le : t.rowCount ≤ t.rowMax
  colCount_le : t.colCount ≤ t.colMax
  width : ∀ vals ∈ rows, vals.length ≤ t.colCount
  entry : ∀ i j, t.entry i j = (rows[i]?.bind (·[j]?)).map (·.getD nullstr)

section

variable {rows : List (List (Option CString))}

theorem HoldsRows.sound (h : t.HoldsRows rows) : t.Sound where
  shape := h.shape
  rowCount_le := h.rowCount_le
  colCount_le := h.colCount_le
  filled i j hout := by
    rw [h.entry]
    by_cases hi : i < rows.length
    · have hwidth := h.width rows[i] (List.getElem_mem hi)
      have hrow := h.rowCount
      rw [List.getElem?_eq_getElem hi, Option.bind_some, List.getElem?_eq_none (by omega)]
      rfl
    · rw [List.getElem?_eq_none (by omega)]
      rfl

/-- What changes neither cells nor counts keeps the rows. -/
theorem HoldsRows.same {t' : ResultsTable} (h : t.HoldsRows rows) (hshape : t'.Shape)
    (hentry : t'.entry = t.entry) (hrowCount : t'.rowCount = t.rowCount)
    (hcolCount : t'.colCount = t.colCount) (hrowMax : t.rowMax ≤ t'.rowMax)
    (hcolMax : t.colMax ≤ t'.colMax) : t'.HoldsRows rows where
  shape := hshape
  rowCount := hrowCount.trans h.rowCount
  rowCount_le := hrowCount.trans_le (h.rowCount_le.trans hrowMax)
  colCount_le := hcolCount.trans_le (h.colCount_le.trans hcolMax)
  width vals hvals := (h.width vals hvals).trans_eq hcolCount.symm
  entry i j := by rw [hentry, h.entry]

/-- A growth does not. -/
theorem HoldsRows.wider {t' : ResultsTable} (h : t.HoldsRows rows) (hwider : t.Wider t') :
    t'.HoldsRows rows :=
  h.same hwider.shape hwider.entry hwider.rowCount hwider.colCount hwider.rowMax_le
    hwider.colMax_le

/-- Neither do names. -/
theorem HoldsRows.putNames {t' : ResultsTable} {names : List CString} (h : t.HoldsRows rows)
    (hnames : t.HasNames col names t') : t'.HoldsRows rows :=
  h.same hnames.shape hnames.entry hnames.rowCount hnames.colCount hnames.rowMax_le
    hnames.colMax_le

/-- **A wipe of a sound table** leaves no row. -/
theorem Sound.holdsRows_wiped {t' : ResultsTable} (h : t.Sound) (hwiped : t.Wiped t') :
    t'.HoldsRows [] where
  shape := hwiped.shape
  rowCount := hwiped.rowCount
  rowCount_le := hwiped.rowCount.trans_le (Nat.zero_le _)
  colCount_le := hwiped.colCount.trans_le (Nat.zero_le _)
  width _ hvals := absurd hvals List.not_mem_nil
  entry i j := by
    rw [hwiped.entry]
    split_ifs with hin
    · rfl
    · exact h.filled i j hin

/-- **A row put behind the others**, and counted. -/
theorem HoldsRows.putRow (h : t.HoldsRows rows) (vals : List (Option CString))
    (hcol : vals.length ≤ t.colMax + sosaDefaultResultColMax)
    (hroom : vals = [] → rows.length < t.rowMax) :
    ∃ t', ResultsTable.putRow rows.length 0 vals t = some t' ∧
      t.HasRow rows.length 0 vals t' ∧
      ({ t' with rowCount := rows.length + 1 } : ResultsTable).HoldsRows (rows ++ [vals]) := by
  have hpos : 0 < sosaDefaultResultRowMax := by decide
  have hrowCount := h.rowCount
  have hle := h.rowCount_le
  have hle' := h.colCount_le
  obtain ⟨t', ht', hrow⟩ := h.shape.putRow (show 0 + vals.length ≤ _ by omega)
    (show rows.length < _ by omega)
  have hcolMax := hrow.colMax_le
  have hrowMax := hrow.rowMax_le
  have hcols : t'.colCount = max t.colCount vals.length := by
    rw [hrow.colCount]
    split_ifs with hnil
    · rw [hnil, List.length_nil, Nat.max_zero]
    · rw [Nat.zero_add]
  refine ⟨t', ht', hrow, ⟨hrow.shape.names, hrow.shape.data⟩, ?_, ?_, ?_, ?_, fun i j => ?_⟩
  · rw [List.length_append, List.length_singleton]
  · show rows.length + 1 ≤ t'.rowMax
    by_cases hnil : vals = []
    · have hlt := hroom hnil
      omega
    · have hin := (hrow.inside hnil).1
      omega
  · show t'.colCount ≤ t'.colMax
    by_cases hnil : vals = []
    · rw [hcols, hnil, List.length_nil]
      omega
    · have hin := (hrow.inside hnil).2
      omega
  · intro vals' hmem
    show vals'.length ≤ t'.colCount
    rcases List.mem_append.mp hmem with hold | hnew
    · have hwidth := h.width vals' hold
      omega
    · rw [List.mem_singleton.mp hnew]
      omega
  · refine (hrow.entry i j).trans ?_
    rw [h.entry, Nat.sub_zero]
    by_cases hi : i = rows.length
    · rw [hi, List.getElem?_concat_length, Option.bind_some]
      by_cases hj : j < vals.length
      · rw [if_pos (by omega)]
      · rw [if_neg (by omega), List.getElem?_eq_none le_rfl, List.getElem?_eq_none (by omega)]
        rfl
    · rw [if_neg (fun hij => hi hij.1)]
      by_cases hlt : i < rows.length
      · rw [List.getElem?_append_left hlt]
      · rw [List.getElem?_eq_none (by omega), List.getElem?_eq_none]
        rw [List.length_append, List.length_singleton]
        omega

end

end ResultsTable

/-! ## The table that is read -/

namespace ResultsObject

/-- **Nothing is read outside.** -/
structure Inside (r : ResultsObject) : Prop where
  names : ∀ col, r.colMax ≤ col → r.colNames col = none
  cols : ∀ row col, r.colMax ≤ col → r.data row col = none
  rows : ∀ row col, r.rowMax ≤ row → r.data row col = none

variable {r : ResultsObject}

theorem Inside.growCols (h : r.Inside) (newColMax : ℕ) :
    r.growCols newColMax = { r with colMax := newColMax } := by
  have hnames : (fun col => if col < r.colMax then r.colNames col else none) = r.colNames := by
    funext col
    split_ifs with hcol
    · rfl
    · exact (h.names col (not_lt.mp hcol)).symm
  have hdata : (fun row col => if col < r.colMax then r.data row col else none) = r.data := by
    funext row col
    split_ifs with hcol
    · rfl
    · exact (h.cols row col (not_lt.mp hcol)).symm
  rw [ResultsObject.growCols, hnames, hdata]

theorem Inside.growRows (h : r.Inside) (newRowMax : ℕ) :
    r.growRows newRowMax = { r with rowMax := newRowMax } := by
  have hdata : (fun row col => if row < r.rowMax then r.data row col else none) = r.data := by
    funext row col
    split_ifs with hrow
    · rfl
    · exact (h.rows row col (not_lt.mp hrow)).symm
  rw [ResultsObject.growRows, hdata]

/-- **A growth changes the two bounds.** -/
theorem Inside.growTo (h : r.Inside) (newColAsk newRowAsk : ℕ) :
    r.growTo newColAsk newRowAsk = { r with
      colMax := if newColAsk < r.colMax then r.colMax
        else max newColAsk (r.colMax + sosaDefaultResultColMax)
      rowMax := if newRowAsk < r.rowMax then r.rowMax
        else max newRowAsk (r.rowMax + sosaDefaultResultRowMax) } := by
  unfold ResultsObject.growTo
  by_cases hfits : newColAsk < r.colMax ∧ newRowAsk < r.rowMax
  · rw [if_pos hfits, if_pos hfits.1, if_pos hfits.2]
  rw [if_neg hfits]
  dsimp only
  by_cases hcol : newColAsk < r.colMax
  · rw [if_neg (not_le.mpr hcol), if_pos hcol, if_pos (by omega), if_neg (by omega), h.growRows]
  · rw [if_pos (not_lt.mp hcol), if_neg hcol, h.growCols]
    by_cases hrow : newRowAsk < r.rowMax
    · rw [if_neg (not_le.mpr hrow), if_pos hrow]
    · have hle' : r.colMax ≤ max newColAsk (r.colMax + sosaDefaultResultColMax) := by omega
      have hwide : ({ r with colMax := max newColAsk (r.colMax + sosaDefaultResultColMax) } :
          ResultsObject).Inside :=
        ⟨fun col hle => h.names col (le_trans hle' hle),
          fun row col hle => h.cols row col (le_trans hle' hle), h.rows⟩
      rw [if_pos (not_lt.mp hrow), if_neg hrow, hwide.growRows]

end ResultsObject

namespace ResultsTable

variable {t : ResultsTable}

theorem Shape.inside (h : t.Shape) : t.object.Inside where
  names _ hle := Grid.place_of_length_le (h.names.le.trans hle)
  cols _ _ hle := h.data.cell_outside fun hin => absurd hin.2 (not_lt.mpr hle)
  rows _ _ hle := h.data.cell_outside fun hin => absurd hin.1 (not_lt.mpr hle)

/-- Only the bounds differ. -/
theorem Wider.object {t' : ResultsTable} (h : t.Wider t') :
    t'.object = { t.object with colMax := t'.colMax, rowMax := t'.rowMax } := by
  have hrest := congrArg (fun x : ResultsTable => { x.object with
    colMax := t'.colMax, rowMax := t'.rowMax, colNames := t.name, data := t.entry }) h.rest
  show ({ t'.object with colNames := t'.name, data := t'.entry } : ResultsObject) = _
  rw [h.name, h.entry]
  exact hrest

/-- **A growth of the arrays is one of what is read.** -/
theorem Shape.object_growTo (h : t.Shape) (newColAsk newRowAsk : ℕ) :
    (t.growTo newColAsk newRowAsk).map object = some (t.object.growTo newColAsk newRowAsk) := by
  obtain ⟨t', ht', hgrown⟩ := h.growTo newColAsk newRowAsk
  rw [ht', Option.map_some, hgrown.toWider.object, h.inside.growTo, hgrown.colMax, hgrown.rowMax]
  rfl

/-- The growth that a put or a name starts with. -/
theorem Shape.object_growIf (h : t.Shape) (needed : Prop) [Decidable needed]
    (newColAsk newRowAsk : ℕ) {t' : ResultsTable}
    (ht' : t.growIf needed newColAsk newRowAsk = some t') :
    (if needed then t.object.growTo newColAsk newRowAsk else t.object) = t'.object := by
  by_cases hneeded : needed
  · have hgrow := h.object_growTo newColAsk newRowAsk
    rw [growIf, if_pos (decide_eq_true hneeded)] at ht'
    rw [ht', Option.map_some] at hgrow
    rw [if_pos hneeded]
    exact (Option.some.inj hgrow).symm
  · rw [growIf, if_neg (by rw [decide_eq_false hneeded]; exact Bool.false_ne_true)] at ht'
    rw [if_neg hneeded, Option.some.inj ht']

/-- **So is a put**, where it is inside and where it is not. -/
theorem Shape.object_put (h : t.Shape) (col row : ℕ) (val : Option CString) :
    (t.put col row val).map object = t.object.put col row val := by
  obtain ⟨grown, hgrow, hgrown⟩ := h.growIf_put col row
  have hobject := h.object_growIf (col ≥ t.object.colMax ∨ row ≥ t.object.rowMax) col row hgrow
  have hread : t.object.put col row val = if col < grown.colMax ∧ row < grown.rowMax then
      some { grown.object with
        rowCount := max grown.rowCount (row + 1)
        colCount := max grown.colCount (col + 1)
        data := Function.update grown.entry row
          (Function.update (grown.entry row) col (some (val.getD nullstr))) } else none := by
    simp only [ResultsObject.put, hobject]
    rfl
  rw [hread]
  by_cases hin : col < grown.colMax ∧ row < grown.rowMax
  · obtain ⟨data, hdata, -, hcell⟩ :=
      hgrown.shape.data.assignCell_eq hin.2 hin.1 (some (val.getD nullstr))
    have hput : t.put col row val = some { grown with
        rowCount := max grown.rowCount (row + 1), colCount := max grown.colCount (col + 1),
        data := data } := by
      rw [ResultsTable.put, hgrow, Option.bind_eq_bind, Option.bind_some, hdata]
      rfl
    have hdata' : cell data = Function.update grown.entry row
        (Function.update (grown.entry row) col (some (val.getD nullstr))) := by
      funext i j
      rw [hcell i j]
      by_cases hi : i = row
      · rw [hi, Function.update_self]
        by_cases hj : j = col
        · rw [hj, Function.update_self, if_pos ⟨rfl, rfl⟩]
        · rw [Function.update_of_ne hj, if_neg (fun hij => hj hij.2)]
          rfl
      · rw [Function.update_of_ne hi, if_neg (fun hij => hi hij.1)]
        rfl
    rw [if_pos hin, hput, Option.map_some, ← hdata']
    rfl
  · have hout : assignCell grown.data row col (some (val.getD nullstr)) = none :=
      hgrown.shape.data.assignCell_outside (fun h => hin ⟨h.2, h.1⟩) _
    rw [if_neg hin, ResultsTable.put, hgrow, Option.bind_eq_bind, Option.bind_some, hout]
    rfl

/-- **So is a name.** -/
theorem Shape.object_putName (h : t.Shape) (col : ℕ) (name : CString) :
    (t.putName col name).map object = t.object.putName col name := by
  obtain ⟨grown, hgrow, hwider, -⟩ := h.growIf_putName col
  have hobject := h.object_growIf (col ≥ t.object.colMax) col 0 hgrow
  have hread : t.object.putName col name = if col < grown.colMax then
      some { grown.object with colNames := Function.update grown.name col (some name) }
      else none := by
    simp only [ResultsObject.putName, hobject]
    rfl
  rw [hread, ResultsTable.putName, hgrow, Option.bind_eq_bind, Option.bind_some]
  by_cases hin : col < grown.colMax
  · have hlt : col < grown.colNames.length := hwider.shape.names.symm ▸ hin
    have hset : assign grown.colNames col (some name) = some (grown.colNames.set col (some name)) :=
      if_pos hlt
    have hnames : place (grown.colNames.set col (some name)) =
        Function.update grown.name col (some name) := by
      funext j
      rw [Grid.place_set hlt]
      by_cases hj : j = col
      · rw [if_pos hj, hj, Function.update_self]
      · rw [if_neg hj, Function.update_of_ne hj]
        rfl
    rw [if_pos hin, hset, ← hnames]
    rfl
  · have hset : assign grown.colNames col (some name) = none :=
      if_neg (hwider.shape.names.symm ▸ hin)
    rw [if_neg hin, hset]
    rfl

/-- **And a wipe**, of a table whose counts are inside. -/
theorem Shape.object_wipe (h : t.Shape) (hrows : t.rowCount ≤ t.rowMax)
    (hcols : t.colCount ≤ t.colMax) : t.wipe.map object = some t.object.wipe := by
  obtain ⟨t', ht', hwiped⟩ := h.wipe hrows hcols
  obtain ⟨hquerySql, hqueryGuid, hexec⟩ := hwiped.labels
  have hentry : t'.entry = t.object.wipe.data := by
    funext i j
    exact hwiped.entry i j
  have hname : t'.name = t.object.wipe.colNames := by
    funext j
    exact hwiped.name j
  rw [ht', Option.map_some, object, hquerySql, hqueryGuid, hexec, hwiped.colMax, hwiped.rowMax,
    hwiped.colCount, hwiped.rowCount, hentry, hname]
  rfl

end ResultsTable

end SosFlow
