import SosFlow.Lib.Separated
import Mathlib.Algebra.Order.BigOperators.Group.List
import Mathlib.Algebra.GroupWithZero.Nat
import Mathlib.Algebra.Order.Group.Nat

/-!
# Comma separated values

Records end at a terminator and their fields at a delimiter. A field is bare
or stands between quotes, where the delimiter and the terminator are text
and a quote is written twice. `parse` reads a text octet by octet, and reads
nothing if a quote stands where none can.

The quotes of a text are those around the quoted fields and two for each
quote in one (`count_parse`), so that a text in which no quote is written
twice gives no field with a quote.
-/

namespace Csv

open Separated

variable {α : Type*} [DecidableEq α]

/-- **What stands for what.** -/
structure Dialect (α : Type*) where
  quote : α
  delimiter : α
  terminator : α
  quote_ne_delimiter : quote ≠ delimiter
  quote_ne_terminator : quote ≠ terminator
  delimiter_ne_terminator : delimiter ≠ terminator

/-- **A field.** -/
structure Field (α : Type*) where
  quoted : Bool
  text : List α
deriving DecidableEq

/-- Where the reader is. -/
inductive Mode (α : Type*) where
  | start
  | bare (text : List α)
  | inside (text : List α)
  | closed (text : List α)

variable (d : Dialect α)

/-- **Reading on**, with the fields of the record that were read. -/
def scan : Mode α → List (Field α) → List α → Option (List (List (Field α)))
  | .start, fields, [] => some (if fields = [] then [] else [fields ++ [⟨false, []⟩]])
  | .bare w, fields, [] => some [fields ++ [⟨false, w⟩]]
  | .inside _, _, [] => none
  | .closed w, fields, [] => some [fields ++ [⟨true, w⟩]]
  | .start, fields, x :: inp =>
    if x = d.quote then scan (.inside []) fields inp
    else if x = d.delimiter then scan .start (fields ++ [⟨false, []⟩]) inp
    else if x = d.terminator then (scan .start [] inp).map ((fields ++ [⟨false, []⟩]) :: ·)
    else scan (.bare [x]) fields inp
  | .bare w, fields, x :: inp =>
    if x = d.quote then none
    else if x = d.delimiter then scan .start (fields ++ [⟨false, w⟩]) inp
    else if x = d.terminator then (scan .start [] inp).map ((fields ++ [⟨false, w⟩]) :: ·)
    else scan (.bare (w ++ [x])) fields inp
  | .inside w, fields, x :: inp =>
    if x = d.quote then scan (.closed w) fields inp else scan (.inside (w ++ [x])) fields inp
  | .closed w, fields, x :: inp =>
    if x = d.quote then scan (.inside (w ++ [x])) fields inp
    else if x = d.delimiter then scan .start (fields ++ [⟨true, w⟩]) inp
    else if x = d.terminator then (scan .start [] inp).map ((fields ++ [⟨true, w⟩]) :: ·)
    else none

/-- **The records of a text.** -/
def parse (inp : List α) : Option (List (List (Field α))) := scan d .start [] inp

/-- The quoted fields of a record. -/
def quotedTexts (fields : List (Field α)) : List (List α) :=
  (fields.filter (·.quoted)).map (·.text)

variable {d} {w inp : List α} {fields : List (Field α)} {mode : Mode α}

/-! ## Quoted fields -/

/-- A text between quotes, none of which is in it. -/
def between (d : Dialect α) (w : List α) : List α := d.quote :: (w ++ [d.quote])

/-- The inside of a quoted field. -/
theorem scan_inside (hw : d.quote ∉ w) (before : List α) :
    scan d (.inside before) fields (w ++ d.quote :: inp) = scan d (.closed (before ++ w)) fields inp := by
  induction w generalizing before with
  | nil => rw [List.nil_append, List.append_nil, scan, if_pos rfl]
  | cons x w ih =>
      rw [List.mem_cons, not_or] at hw
      rw [List.cons_append, scan, if_neg (Ne.symm hw.1), ih hw.2, List.append_assoc,
        List.singleton_append]

/-- A quoted field with another behind it. -/
theorem scan_delimited (hw : d.quote ∉ w) :
    scan d .start fields (between d w ++ d.delimiter :: inp) =
      scan d .start (fields ++ [⟨true, w⟩]) inp := by
  rw [between, List.cons_append, List.append_assoc, List.singleton_append, scan, if_pos rfl,
    scan_inside hw, List.nil_append, scan, if_neg d.quote_ne_delimiter.symm, if_pos rfl]

/-- A quoted field at the end of a record. -/
theorem scan_terminated (hw : d.quote ∉ w) :
    scan d .start fields (between d w ++ d.terminator :: inp) =
      (scan d .start [] inp).map ((fields ++ [⟨true, w⟩]) :: ·) := by
  rw [between, List.cons_append, List.append_assoc, List.singleton_append, scan, if_pos rfl,
    scan_inside hw, List.nil_append, scan, if_neg d.quote_ne_terminator.symm,
    if_neg d.delimiter_ne_terminator.symm, if_pos rfl]

/-- **A record of quoted fields.** -/
theorem scan_record {ws : List (List α)} (hne : ws ≠ []) (hws : ∀ w ∈ ws, d.quote ∉ w) :
    scan d .start fields (separated [d.delimiter] [d.terminator] (ws.map (between d)) ++ inp) =
      (scan d .start [] inp).map ((fields ++ ws.map (Field.mk true)) :: ·) := by
  induction ws generalizing fields with
  | nil => exact absurd rfl hne
  | cons w ws ih =>
      rw [List.forall_mem_cons] at hws
      cases ws with
      | nil =>
          rw [List.map_singleton, separated_singleton, List.append_assoc, List.singleton_append,
            scan_terminated hws.1]
          rfl
      | cons w' ws =>
          rw [List.map_cons, List.map_cons, separated_cons_cons, ← List.map_cons, List.append_assoc,
            List.append_assoc, List.singleton_append, scan_delimited hws.1,
            ih (List.cons_ne_nil _ _) hws.2, List.append_assoc]
          rfl

/-- Quoted fields with a delimiter behind each are one record, with a bare field at its end. -/
theorem scan_unended {ws : List (List α)} (hne : fields ++ ws.map (Field.mk true) ≠ [])
    (hws : ∀ w ∈ ws, d.quote ∉ w) :
    scan d .start fields (ws.flatMap fun w => between d w ++ [d.delimiter]) =
      some [fields ++ ws.map (Field.mk true) ++ [⟨false, []⟩]] := by
  induction ws generalizing fields with
  | nil =>
      rw [List.map_nil, List.append_nil] at hne ⊢
      rw [List.flatMap_nil, scan, if_neg hne]
  | cons w ws ih =>
      rw [List.forall_mem_cons] at hws
      rw [List.flatMap_cons, List.append_assoc, List.singleton_append, scan_delimited hws.1,
        ih (by simp) hws.2, List.append_assoc fields]
      rfl

/-! ## Counting quotes -/

/-- The quotes that a field is written with. -/
def Field.quotes (d : Dialect α) (f : Field α) : ℕ :=
  if f.quoted then 2 + 2 * f.text.count d.quote else 0

/-- Those of a record. -/
def quotes (d : Dialect α) (fields : List (Field α)) : ℕ := (fields.map (Field.quotes d)).sum

/-- Those that were read of a field. -/
def Mode.quotes (d : Dialect α) : Mode α → ℕ
  | start => 0
  | bare _ => 0
  | inside w => 1 + 2 * w.count d.quote
  | closed w => 2 + 2 * w.count d.quote

theorem quotes_append (fs gs : List (Field α)) : quotes d (fs ++ gs) = quotes d fs + quotes d gs := by
  rw [quotes, quotes, quotes, List.map_append, List.sum_append]

theorem quotes_singleton (f : Field α) : quotes d [f] = f.quotes d := List.sum_singleton

/-- **Nothing is lost of the quotes**, from where the reader is on. -/
theorem count_scan {records : List (List (Field α))} (h : scan d mode fields inp = some records) :
    inp.count d.quote + mode.quotes d + quotes d fields = (records.map (quotes d)).sum := by
  have hdelim := d.quote_ne_delimiter
  have hterm := d.quote_ne_terminator
  induction inp generalizing mode fields records with
  | nil =>
      cases mode with
      | start =>
          rw [scan, Option.some.injEq] at h
          subst h
          split
          case isTrue hnil => simp [hnil, quotes, Mode.quotes]
          case isFalse => simp [quotes_append, quotes_singleton, Field.quotes, Mode.quotes]
      | bare w =>
          cases h
          simp [quotes_append, quotes_singleton, Field.quotes, Mode.quotes]
      | inside w => cases h
      | closed w =>
          cases h
          simp [quotes_append, quotes_singleton, Field.quotes, Mode.quotes]
          omega
  | cons x inp ih =>
      have hquote : (d.quote :: inp).count d.quote = inp.count d.quote + 1 := List.count_cons_self
      have hother : x ≠ d.quote → (x :: inp).count d.quote = inp.count d.quote :=
        fun hx => List.count_cons_of_ne hx
      -- a field is added to the record, or the record to those behind it
      have hdelimited : ∀ f, scan d .start (fields ++ [f]) inp = some records →
          inp.count d.quote + f.quotes d + quotes d fields = (records.map (quotes d)).sum := by
        intro f hf
        have hmore := ih hf
        rw [quotes_append, quotes_singleton, Mode.quotes] at hmore
        omega
      have hterminated : ∀ f,
          (scan d .start [] inp).map ((fields ++ [f]) :: ·) = some records →
          inp.count d.quote + f.quotes d + quotes d fields = (records.map (quotes d)).sum := by
        intro f hf
        obtain ⟨rest, hrest, rfl⟩ := Option.map_eq_some_iff.mp hf
        have hmore := ih hrest
        rw [Mode.quotes, quotes, List.map_nil, List.sum_nil] at hmore
        rw [List.map_cons, List.sum_cons, quotes_append, quotes_singleton]
        omega
      cases mode with
      | start =>
          rw [scan] at h
          split_ifs at h with hq hd ht
          · have hmore := ih h
            subst hq
            simp only [Mode.quotes, List.count_nil] at hmore ⊢
            omega
          · rw [hother hq]
            exact hdelimited _ h
          · rw [hother hq]
            exact hterminated _ h
          · have hmore := ih h
            rw [hother hq]
            exact hmore
      | bare w =>
          rw [scan] at h
          split_ifs at h with hq hd ht
          · rw [hother hq]
            exact hdelimited _ h
          · rw [hother hq]
            exact hterminated _ h
          · have hmore := ih h
            rw [hother hq]
            exact hmore
      | inside w =>
          rw [scan] at h
          split_ifs at h with hq
          · have hmore := ih h
            subst hq
            simp only [Mode.quotes] at hmore ⊢
            omega
          · have hmore := ih h
            rw [hother hq]
            simp only [Mode.quotes, List.count_append, List.count_cons_of_ne hq, List.count_nil,
              Nat.add_zero] at hmore ⊢
            exact hmore
      | closed w =>
          rw [scan] at h
          split_ifs at h with hq hd ht
          · have hmore := ih h
            subst hq
            simp only [Mode.quotes, List.count_append, List.count_singleton_self] at hmore ⊢
            omega
          · rw [hother hq]
            exact hdelimited _ h
          · rw [hother hq]
            exact hterminated _ h

/-- **The quotes of a text** are those its fields are written with. -/
theorem count_parse {records : List (List (Field α))} (h : parse d inp = some records) :
    inp.count d.quote = (records.map (quotes d)).sum := count_scan h

theorem quotes_eq (fields : List (Field α)) :
    quotes d fields = ((quotedTexts fields).map fun w => 2 + 2 * w.count d.quote).sum := by
  induction fields with
  | nil => rfl
  | cons f fields ih =>
      rw [quotes, List.map_cons, List.sum_cons, ← quotes, ih, Field.quotes, quotedTexts]
      cases hquoted : f.quoted <;> simp [quotedTexts, hquoted]

theorem count_between (w : List α) : (between d w).count d.quote = 2 + w.count d.quote := by
  rw [between, List.count_cons_self, List.count_append, List.count_singleton_self]
  omega

theorem count_separated (ws : List (List α)) :
    (separated [d.delimiter] [d.terminator] (ws.map (between d))).count d.quote =
      (ws.map fun w => 2 + w.count d.quote).sum := by
  have hdelim : [d.delimiter].count d.quote = 0 := by
    rw [List.count_eq_zero, List.mem_singleton]
    exact d.quote_ne_delimiter
  have hterm : [d.terminator].count d.quote = 0 := by
    rw [List.count_eq_zero, List.mem_singleton]
    exact d.quote_ne_terminator
  induction ws with
  | nil => rfl
  | cons w ws ih =>
      cases ws with
      | nil => simp [count_between, hterm]
      | cons w' ws =>
          rw [List.map_cons, List.map_cons, separated_cons_cons, ← List.map_cons, List.count_append,
            List.count_append, ih, count_between, hdelim, Nat.zero_add]
          rfl

/-- A record with a quoted field in front of others. -/
theorem le_quotes {ws : List (List α)} (hne : ws ≠ []) (h : (quotedTexts fields).tail = ws) :
    2 + (ws.map fun w => 2 + 2 * w.count d.quote).sum ≤ quotes d fields := by
  rw [quotes_eq]
  cases htexts : quotedTexts fields with
  | nil =>
      rw [htexts] at h
      exact absurd h.symm hne
  | cons first rest =>
      rw [htexts, List.tail_cons] at h
      rw [h, List.map_cons, List.sum_cons]
      omega

/-- **What is read from a text that writes no quote twice has none**: its records give the
rows behind their first fields, and it has two quotes for each field and those of the rows. -/
theorem quote_notMem_of_parse {records : List (List (Field α))} {rows : List (List (List α))}
    (hparse : parse d inp = some records)
    (hrows : records.map (fun fields => (quotedTexts fields).tail) = rows)
    (hne : ∀ row ∈ rows, row ≠ [])
    (hcount : inp.count d.quote =
      (rows.map fun row => 2 + (row.map fun w => 2 + w.count d.quote).sum).sum) :
    ∀ row ∈ rows, ∀ w ∈ row, d.quote ∉ w := by
  have hle : (rows.map fun row => 2 + (row.map fun w => 2 + 2 * w.count d.quote).sum).sum ≤
      (records.map (quotes d)).sum := by
    rw [← hrows, List.map_map]
    refine List.sum_le_sum fun fields hfields => le_quotes (hne _ ?_) rfl
    rw [← hrows]
    exact List.mem_map_of_mem hfields
  have htwice : ∀ row : List (List α), (row.map fun w => 2 + 2 * w.count d.quote).sum =
      (row.map fun w => 2 + w.count d.quote).sum + (row.map fun w => w.count d.quote).sum := by
    intro row
    rw [← List.sum_map_add]
    refine congrArg List.sum (List.map_congr_left fun w _ => ?_)
    omega
  have hsum : (rows.map fun row => 2 + (row.map fun w => 2 + 2 * w.count d.quote).sum).sum =
      (rows.map fun row => 2 + (row.map fun w => 2 + w.count d.quote).sum).sum +
        (rows.map fun row => (row.map fun w => w.count d.quote).sum).sum := by
    rw [← List.sum_map_add]
    refine congrArg List.sum (List.map_congr_left fun row _ => ?_)
    rw [htwice row, Nat.add_assoc]
  have hzero : (rows.map fun row => (row.map fun w => w.count d.quote).sum).sum = 0 := by
    rw [count_parse hparse] at hcount
    omega
  intro row hrow w hw
  rw [List.sum_eq_zero_iff_forall_eq_nat] at hzero
  have hrowZero := hzero _ (List.mem_map_of_mem hrow)
  rw [List.sum_eq_zero_iff_forall_eq_nat] at hrowZero
  exact List.count_eq_zero.mp (hrowZero _ (List.mem_map_of_mem hw))

end Csv
