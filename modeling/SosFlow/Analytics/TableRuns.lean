import SosFlow.Analytics.Table
import SosFlow.Lib.Trace

/-!
# A results table in use

A table is made with some size and then put into, named, grown and wiped.
Its arrays always have the shape that `row_max` and `col_max` say, and its
counts cover what was put since the last wipe. Three things can go wrong on the
way: an index too far outside is used although the growth stopped short of it,
the sums of a growth leave the range of `int`, and a name outside the counted
columns survives a wipe. A run is right exactly if none of them happens
(`represents_iff`).
-/

namespace SosFlow

open Trace (Along)

/-- A call on a results table. -/
inductive TableCall where
  | put (col row : ℕ) (val : Option CString)
  | putName (col : ℕ) (name : CString)
  | growTo (newColAsk newRowAsk : ℕ)
  | wipe

namespace ResultsTable

/-- One call. -/
def call (t : ResultsTable) : TableCall → Option ResultsTable
  | .put col row val => t.put col row val
  | .putName col name => t.putName col name
  | .growTo newColAsk newRowAsk => t.growTo newColAsk newRowAsk
  | .wipe => t.wipe

variable (t : ResultsTable)

/-- `col_max + SOSA_DEFAULT_RESULT_COL_MAX` and `row_max + SOSA_DEFAULT_RESULT_ROW_MAX`,
which every growth computes, are `int`s. -/
def GrowthIsInt : Prop :=
  t.colMax + sosaDefaultResultColMax ≤ intMax ∧ t.rowMax + sosaDefaultResultRowMax ≤ intMax

/-- The sums that a call computes are `int`s. An index below `row_max` plus one is. -/
def SumsAreInts : TableCall → Prop
  | .put col row _ => col ≥ t.colMax ∨ row ≥ t.rowMax → t.GrowthIsInt
  | .putName col _ => col ≥ t.colMax → t.GrowthIsInt
  | .growTo newColAsk newRowAsk => ¬ (newColAsk < t.colMax ∧ newRowAsk < t.rowMax) → t.GrowthIsInt
  | .wipe => True

/-- **What a call is for**: a put changes its cell and nothing else, a wipe leaves
nothing. -/
def Effect (t t' : ResultsTable) : TableCall → Prop
  | .put col row val =>
      t'.entry row col = some (val.getD nullstr) ∧
      (∀ i j, ¬ (i = row ∧ j = col) → t'.entry i j = t.entry i j) ∧ t'.name = t.name
  | .wipe => (∀ i j, t'.entry i j = none) ∧ ∀ j, t'.name j = none
  | _ => True

/-- **What a call needs**: the growth it asks for stays in the range of `int`, and
reaches the index. A wipe needs every name to be in a counted column. -/
def Meets (t : ResultsTable) : TableCall → Prop
  | .put col row _ => (col < t.colMax ∧ row < t.rowMax) ∨ (t.GrowthIsInt ∧
      col < t.colMax + sosaDefaultResultColMax ∧ row < t.rowMax + sosaDefaultResultRowMax)
  | .putName col _ => col < t.colMax ∨ (t.GrowthIsInt ∧ col < t.colMax + sosaDefaultResultColMax)
  | .growTo newColAsk newRowAsk => (newColAsk < t.colMax ∧ newRowAsk < t.rowMax) ∨ t.GrowthIsInt
  | .wipe => ∀ col, t.colCount ≤ col → t.name col = none

end ResultsTable

/-- A table, and where something was put since it was last wiped: column and row. -/
structure TableRun where
  table : ResultsTable
  puts : List (ℕ × ℕ)

namespace TableRun

/-- The table as it is made. -/
def start (rowsIncoming colsIncoming : ℕ) : TableRun :=
  ⟨.initSized rowsIncoming colsIncoming, []⟩

/-- What was put, after a call. -/
def noted (puts : List (ℕ × ℕ)) : TableCall → List (ℕ × ℕ)
  | .put col row _ => (col, row) :: puts
  | .wipe => []
  | _ => puts

/-- One call; an access outside the arrays ends the run. -/
def step (s : TableRun) (c : TableCall) : Option TableRun :=
  (s.table.call c).map fun table => ⟨table, noted s.puts c⟩

/-- **The counts** are the least bounds of what was put. -/
structure Counted (s : TableRun) : Prop where
  rows : IsLeast {n | ∀ p ∈ s.puts, p.2 < n} s.table.rowCount
  cols : IsLeast {n | ∀ p ∈ s.puts, p.1 < n} s.table.colCount

/-- **A call is right**: it stays inside the arrays and in the range of `int`, does
what it is for, and leaves arrays of the shape and counts of the puts. -/
def Right (s : TableRun) (c : TableCall) : Prop :=
  s.table.SumsAreInts c ∧ ∃ s', s.step c = some s' ∧
    s'.table.Shape ∧ s'.Counted ∧ s.table.Effect s'.table c

/-- **A run represents its calls**: the table as it is made has the shape, and every
call of the run is right. -/
def Represents (rowsIncoming colsIncoming : ℕ) (calls : List TableCall) : Prop :=
  (start rowsIncoming colsIncoming).table.Shape ∧ (start rowsIncoming colsIncoming).Counted ∧
    Along step Right (start rowsIncoming colsIncoming) calls

/-- **The invariant**: shape and counts, and no cell is outside the counted area. -/
structure Inv (s : TableRun) : Prop where
  shape : s.table.Shape
  counted : s.Counted
  rowCount_le : s.table.rowCount ≤ s.table.rowMax
  colCount_le : s.table.colCount ≤ s.table.colMax
  filled : ∀ i j, ¬ (i < s.table.rowCount ∧ j < s.table.colCount) → s.table.entry i j = none

theorem Inv.sound {s : TableRun} (h : s.Inv) : s.table.Sound :=
  ⟨h.shape, h.rowCount_le, h.colCount_le, h.filled⟩

/-! ## The counts -/

/-- One value more moves the least bound up to it. -/
theorem isLeast_cons {α : Type} {f : α → ℕ} {puts : List α} {n : ℕ}
    (h : IsLeast {n | ∀ p ∈ puts, f p < n} n) (q : α) :
    IsLeast {n | ∀ p ∈ q :: puts, f p < n} (max n (f q + 1)) := by
  constructor
  · intro p hp
    rcases List.mem_cons.mp hp with rfl | hold
    · omega
    · have hlt := h.1 p hold
      omega
  · intro m hm
    have hq := hm q List.mem_cons_self
    have hle : n ≤ m := h.2 fun p hp => hm p (List.mem_cons_of_mem q hp)
    omega

theorem isLeast_nil {α : Type} (f : α → ℕ) : IsLeast {n | ∀ p ∈ ([] : List α), f p < n} 0 :=
  ⟨fun _ hp => absurd hp List.not_mem_nil, fun n _ => Nat.zero_le n⟩

theorem counted_start (rowsIncoming colsIncoming : ℕ) :
    (start rowsIncoming colsIncoming).Counted :=
  ⟨isLeast_nil _, isLeast_nil _⟩

theorem inv_start (rowsIncoming colsIncoming : ℕ) : (start rowsIncoming colsIncoming).Inv where
  shape := ResultsTable.shape_initSized rowsIncoming colsIncoming
  counted := counted_start rowsIncoming colsIncoming
  rowCount_le := Nat.zero_le _
  colCount_le := Nat.zero_le _
  filled i j _ := by
    show Grid.cell (List.replicate rowsIncoming (List.replicate colsIncoming none)) i j = none
    by_cases hi : i < rowsIncoming
    · rw [Grid.cell, List.getElem?_replicate_of_lt hi, Option.getD_some, Grid.place_replicate]
    · rw [Grid.cell, List.getElem?_eq_none (by rw [List.length_replicate]; omega), Option.getD_none]
      exact Grid.place_of_length_le (Nat.zero_le _)

/-- A table as it is made holds no row. -/
theorem holdsRows_initSized (rowsIncoming colsIncoming : ℕ) :
    (ResultsTable.initSized rowsIncoming colsIncoming).HoldsRows [] where
  shape := ResultsTable.shape_initSized rowsIncoming colsIncoming
  rowCount := rfl
  rowCount_le := Nat.zero_le _
  colCount_le := Nat.zero_le _
  width _ hvals := absurd hvals List.not_mem_nil
  entry i j := (inv_start rowsIncoming colsIncoming).filled i j
    fun hin => absurd hin.1 (Nat.not_lt_zero i)

/-! ## Each call -/

variable {s s' : TableRun} {t' : ResultsTable} {col row : ℕ} {val : Option CString}

/-- **A put keeps the invariant.** -/
theorem Inv.put (h : s.Inv) (hput : s.table.HasPut col row val t') :
    (⟨t', (col, row) :: s.puts⟩ : TableRun).Inv := by
  have hrows := h.rowCount_le
  have hcols := h.colCount_le
  have hin := hput.inside
  have hrowMax := hput.rowMax_le
  have hcolMax := hput.colMax_le
  refine ⟨hput.shape, ⟨?_, ?_⟩, ?_, ?_, ?_⟩
  · show IsLeast _ t'.rowCount
    rw [hput.rowCount]
    exact isLeast_cons h.counted.rows (col, row)
  · show IsLeast _ t'.colCount
    rw [hput.colCount]
    exact isLeast_cons h.counted.cols (col, row)
  · show t'.rowCount ≤ t'.rowMax
    rw [hput.rowCount]
    omega
  · show t'.colCount ≤ t'.colMax
    rw [hput.colCount]
    omega
  · intro i j hout
    change ¬ (i < t'.rowCount ∧ j < t'.colCount) at hout
    rw [hput.rowCount, hput.colCount] at hout
    show t'.entry i j = none
    rw [hput.entry, if_neg (by omega)]
    exact h.filled i j (by omega)

/-- A name and a growth count nothing. -/
theorem Inv.same (h : s.Inv) (hshape : t'.Shape) (hentry : t'.entry = s.table.entry)
    (hrowCount : t'.rowCount = s.table.rowCount) (hcolCount : t'.colCount = s.table.colCount)
    (hrowMax : s.table.rowMax ≤ t'.rowMax) (hcolMax : s.table.colMax ≤ t'.colMax) :
    (⟨t', s.puts⟩ : TableRun).Inv := by
  refine ⟨hshape, ⟨?_, ?_⟩, ?_, ?_, ?_⟩
  · show IsLeast _ t'.rowCount
    rw [hrowCount]
    exact h.counted.rows
  · show IsLeast _ t'.colCount
    rw [hcolCount]
    exact h.counted.cols
  · show t'.rowCount ≤ t'.rowMax
    rw [hrowCount]
    exact h.rowCount_le.trans hrowMax
  · show t'.colCount ≤ t'.colMax
    rw [hcolCount]
    exact h.colCount_le.trans hcolMax
  · intro i j hout
    change ¬ (i < t'.rowCount ∧ j < t'.colCount) at hout
    rw [hrowCount, hcolCount] at hout
    show t'.entry i j = none
    rw [hentry]
    exact h.filled i j hout

/-- **A wipe leaves no cell**: there was none that it does not visit. -/
theorem Inv.entry_wiped (h : s.Inv) (hwiped : s.table.Wiped t') (i j : ℕ) : t'.entry i j = none := by
  rw [hwiped.entry]
  split_ifs with hin
  · rfl
  · exact h.filled i j hin

theorem Inv.wipe (h : s.Inv) (hwiped : s.table.Wiped t') : (⟨t', []⟩ : TableRun).Inv := by
  refine ⟨hwiped.shape, ⟨?_, ?_⟩, ?_, ?_, fun i j _ => h.entry_wiped hwiped i j⟩
  · show IsLeast _ t'.rowCount
    rw [hwiped.rowCount]
    exact isLeast_nil _
  · show IsLeast _ t'.colCount
    rw [hwiped.colCount]
    exact isLeast_nil _
  · show t'.rowCount ≤ _
    rw [hwiped.rowCount]
    exact Nat.zero_le _
  · show t'.colCount ≤ _
    rw [hwiped.colCount]
    exact Nat.zero_le _

/-- A put is defined less than the default amounts outside, and nowhere else. -/
theorem Inv.step_put (h : s.Inv) (hstep : s.step (.put col row val) = some s') :
    (col < s.table.colMax + sosaDefaultResultColMax ∧
      row < s.table.rowMax + sosaDefaultResultRowMax) ∧
    s.table.HasPut col row val s'.table ∧ s'.puts = (col, row) :: s.puts := by
  obtain ⟨t', ht', rfl⟩ := Option.map_eq_some_iff.mp hstep
  by_cases hroom : col < s.table.colMax + sosaDefaultResultColMax ∧
      row < s.table.rowMax + sosaDefaultResultRowMax
  · obtain ⟨t'', ht'', hput⟩ := h.shape.put hroom.1 hroom.2 val
    obtain rfl := Option.some.inj (ht''.symm.trans ht')
    exact ⟨hroom, hput, rfl⟩
  · have hnone := h.shape.put_outside hroom val
    cases hnone.symm.trans ht'

/-- So is a name. -/
theorem Inv.step_putName (h : s.Inv) {name : CString} (hstep : s.step (.putName col name) = some s') :
    col < s.table.colMax + sosaDefaultResultColMax ∧ s.table.HasName col name s'.table ∧
      s'.puts = s.puts := by
  obtain ⟨t', ht', rfl⟩ := Option.map_eq_some_iff.mp hstep
  by_cases hroom : col < s.table.colMax + sosaDefaultResultColMax
  · obtain ⟨t'', ht'', hname⟩ := h.shape.putName hroom name
    obtain rfl := Option.some.inj (ht''.symm.trans ht')
    exact ⟨hroom, hname, rfl⟩
  · have hnone := h.shape.putName_outside hroom name
    cases hnone.symm.trans ht'

/-- A growth always is. -/
theorem Inv.step_growTo (h : s.Inv) (newColAsk newRowAsk : ℕ) :
    ∃ t', s.step (.growTo newColAsk newRowAsk) = some ⟨t', s.puts⟩ ∧
      s.table.Grown newColAsk newRowAsk t' := by
  obtain ⟨t', ht', hgrown⟩ := h.shape.growTo newColAsk newRowAsk
  exact ⟨t', Option.map_eq_some_iff.mpr ⟨t', ht', rfl⟩, hgrown⟩

/-- And so is a wipe. -/
theorem Inv.step_wipe (h : s.Inv) : ∃ t', s.step .wipe = some ⟨t', []⟩ ∧ s.table.Wiped t' := by
  obtain ⟨t', ht', hwiped⟩ := h.shape.wipe h.rowCount_le h.colCount_le
  exact ⟨t', Option.map_eq_some_iff.mpr ⟨t', ht', rfl⟩, hwiped⟩

/-- **Every call keeps the invariant.** -/
theorem Inv.step (h : s.Inv) {c : TableCall} (hstep : s.step c = some s') : s'.Inv := by
  obtain ⟨t', puts⟩ := s'
  cases c with
  | put col row val =>
      obtain ⟨-, hput, hputs⟩ := h.step_put hstep
      obtain rfl : puts = (col, row) :: s.puts := hputs
      exact h.put hput
  | putName col name =>
      obtain ⟨-, hname, hputs⟩ := h.step_putName hstep
      obtain rfl : puts = s.puts := hputs
      exact h.same hname.shape hname.entry hname.rowCount hname.colCount hname.rowMax_le
        hname.colMax_le
  | growTo newColAsk newRowAsk =>
      obtain ⟨t'', ht'', hgrown⟩ := h.step_growTo newColAsk newRowAsk
      rw [← Option.some.inj (ht''.symm.trans hstep)]
      have hwider := hgrown.toWider
      exact h.same hwider.shape hwider.entry hwider.rowCount hwider.colCount hwider.rowMax_le
        hwider.colMax_le
  | wipe =>
      obtain ⟨t'', ht'', hwiped⟩ := h.step_wipe
      rw [← Option.some.inj (ht''.symm.trans hstep)]
      exact h.wipe hwiped

/-! ## Which calls are right -/

/-- A call that is defined, in range and does what it is for is right. -/
theorem Inv.right (h : s.Inv) {c : TableCall} (hsums : s.table.SumsAreInts c)
    (hstep : s.step c = some s') (heffect : s.table.Effect s'.table c) : s.Right c :=
  ⟨hsums, s', hstep, (h.step hstep).shape, (h.step hstep).counted, heffect⟩

/-- **A put.** -/
theorem Inv.right_put_iff (h : s.Inv) :
    s.Right (.put col row val) ↔ s.table.Meets (.put col row val) := by
  constructor
  · rintro ⟨hsums, s', hstep, -⟩
    have hroom := (h.step_put hstep).1
    by_cases hin : col < s.table.colMax ∧ row < s.table.rowMax
    · exact .inl hin
    · exact .inr ⟨hsums (by omega), hroom⟩
  · intro hmeets
    have hroom : col < s.table.colMax + sosaDefaultResultColMax ∧
        row < s.table.rowMax + sosaDefaultResultRowMax := by
      rcases hmeets with hin | ⟨-, hroom⟩
      · omega
      · exact hroom
    obtain ⟨t', ht', hput⟩ := h.shape.put hroom.1 hroom.2 val
    have hsums : s.table.SumsAreInts (.put col row val) := by
      intro hneeded
      rcases hmeets with hin | ⟨hint, -⟩
      · omega
      · exact hint
    have hstep : s.step (.put col row val) = some ⟨t', (col, row) :: s.puts⟩ :=
      Option.map_eq_some_iff.mpr ⟨t', ht', rfl⟩
    refine h.right hsums hstep ⟨?_, ?_, hput.name⟩
    · rw [hput.entry, if_pos ⟨rfl, rfl⟩]
    · intro i j hne
      rw [hput.entry, if_neg hne]

/-- **A name.** -/
theorem Inv.right_putName_iff (h : s.Inv) {name : CString} :
    s.Right (.putName col name) ↔ s.table.Meets (.putName col name) := by
  constructor
  · rintro ⟨hsums, s', hstep, -⟩
    have hroom := (h.step_putName hstep).1
    by_cases hin : col < s.table.colMax
    · exact .inl hin
    · exact .inr ⟨hsums (by omega), hroom⟩
  · intro hmeets
    have hroom : col < s.table.colMax + sosaDefaultResultColMax := by
      rcases hmeets with hin | ⟨-, hroom⟩
      · omega
      · exact hroom
    obtain ⟨t', ht', hname⟩ := h.shape.putName hroom name
    have hsums : s.table.SumsAreInts (.putName col name) := by
      intro hneeded
      rcases hmeets with hin | ⟨hint, -⟩
      · omega
      · exact hint
    have hstep : s.step (.putName col name) = some ⟨t', s.puts⟩ :=
      Option.map_eq_some_iff.mpr ⟨t', ht', rfl⟩
    exact h.right hsums hstep trivial

/-- **A growth.** -/
theorem Inv.right_growTo_iff (h : s.Inv) {newColAsk newRowAsk : ℕ} :
    s.Right (.growTo newColAsk newRowAsk) ↔ s.table.Meets (.growTo newColAsk newRowAsk) := by
  have hor : s.table.SumsAreInts (.growTo newColAsk newRowAsk) ↔
      s.table.Meets (.growTo newColAsk newRowAsk) := Decidable.or_iff_not_imp_left.symm
  rw [← hor]
  refine ⟨fun hright => hright.1, fun hsums => ?_⟩
  obtain ⟨t', ht', -⟩ := h.step_growTo newColAsk newRowAsk
  exact h.right hsums ht' trivial

/-- **A wipe.** -/
theorem Inv.right_wipe_iff (h : s.Inv) : s.Right .wipe ↔ s.table.Meets .wipe := by
  obtain ⟨t', ht', hwiped⟩ := h.step_wipe
  constructor
  · rintro ⟨-, s', hstep, -, -, -, hnames⟩ col hcol
    obtain rfl := Option.some.inj (ht'.symm.trans hstep)
    have hname := hnames col
    rw [hwiped.name, if_neg (not_lt.mpr hcol)] at hname
    exact hname
  · intro hmeets
    refine h.right trivial ht' ⟨fun i j => h.entry_wiped hwiped i j, ?_⟩
    intro j
    rw [hwiped.name]
    split_ifs with hj
    · rfl
    · exact hmeets j (not_lt.mp hj)

theorem Inv.right_iff (h : s.Inv) (c : TableCall) : s.Right c ↔ s.table.Meets c := by
  cases c with
  | put col row val => exact h.right_put_iff
  | putName col name => exact h.right_putName_iff
  | growTo newColAsk newRowAsk => exact h.right_growTo_iff
  | wipe => exact h.right_wipe_iff

/-- **A run represents its calls exactly when each meets what it needs.** -/
theorem represents_iff (rowsIncoming colsIncoming : ℕ) (calls : List TableCall) :
    Represents rowsIncoming colsIncoming calls ↔
      Along step (fun s c => s.table.Meets c) (start rowsIncoming colsIncoming) calls := by
  have halong : Along step Right (start rowsIncoming colsIncoming) calls ↔
      Along step (fun s c => s.table.Meets c) (start rowsIncoming colsIncoming) calls :=
    Trace.along_congr (fun _ c h => Inv.right_iff h c) (fun _ _ _ h hstep => Inv.step h hstep)
      (inv_start rowsIncoming colsIncoming)
  rw [← halong]
  refine ⟨fun h => h.2.2, fun h => ⟨?_, counted_start rowsIncoming colsIncoming, h⟩⟩
  exact ResultsTable.shape_initSized rowsIncoming colsIncoming

/-- **A jump of the default amount** is outside the table that has grown for it, and a
name that no put counts survives the wipe. -/
theorem not_represents :
    (start 1 1).step (.put 15 0 none) = none ∧
    (((start 1 14).step (.putName 3 nameX)).bind (·.step .wipe)).map (·.table.name 3) =
      some (some nameX) ∧
    ¬ ∀ rowsIncoming colsIncoming calls, 0 < rowsIncoming → 0 < colsIncoming →
      Represents rowsIncoming colsIncoming calls := by
  have hput : (start 1 1).step (.put 15 0 none) = none := by decide
  refine ⟨hput, by decide, ?_⟩
  intro hall
  obtain ⟨-, s', hs', -⟩ := (hall 1 1 [.put 15 0 none] (by decide) (by decide)).2.2.1
  cases hput.symm.trans hs'

end TableRun

end SosFlow
