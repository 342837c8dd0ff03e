import Mathlib.Data.List.Basic
import Mathlib.Data.Nat.Notation
import TickBacktest.Text.Delimited

/-! # Plainly written tables

Cells with a comma between them and a line break after each record, without quotes (`joined`). A
cell and its comma leave the reader at the next field, with the cell among the fields
(`foldl_comma`), and the last cell of a record at the next record (`foldl_break`). So a record is
read as its cells (`foldl_line`), and a table as its records (`records_joined`). -/

namespace TickBacktest.Text.Delimited

/-- The characters of a cell that is written without quotes. -/
def PlainChars (cs : List Char) : Prop := ∀ c ∈ cs, c ≠ ',' ∧ c ≠ '"' ∧ c ≠ '\r' ∧ c ≠ '\n'

/-- A record as a line. -/
def line (record : List String) : List Char := [','].intercalate (record.map (·.toList)) ++ ['\n']

/-- Records as lines. -/
def joined (rows : List (List String)) : String := String.ofList (rows.flatMap line)

namespace Progress

section

variable {place : Place} {records : List (List String)} {fields : List String}

/-- The characters of a cell are put into the open field. -/
theorem foldl_plain {cs : List Char} (hcs : PlainChars cs) {chars : List Char}
    (hplace : place = .recordStart ∨ place = .fieldStart ∨ place = .plain) :
    cs.foldl step ⟨place, records, fields, chars⟩ =
      ⟨if cs = [] then place else .plain, records, fields, cs.reverse ++ chars⟩ := by
  induction cs generalizing place chars with
  | nil => rw [if_pos rfl]; rfl
  | cons c cs ih =>
    obtain ⟨⟨hcomma, hquote, hcr, hlf⟩, hrest⟩ := List.forall_mem_cons.mp hcs
    have hstep : step ⟨place, records, fields, chars⟩ c =
        ⟨.plain, records, fields, c :: chars⟩ := by
      unfold step unquoted
      rcases hplace with rfl | rfl | rfl <;> simp [hcomma, hquote, hcr, hlf, put]
    rw [List.foldl_cons, hstep, ih hrest (.inr (.inr rfl)), ite_self,
      if_neg (List.cons_ne_nil c cs), List.reverse_cons, List.append_assoc, List.singleton_append]

theorem foldl_comma {cell : String} (hcell : PlainChars cell.toList)
    (hplace : place = .recordStart ∨ place = .fieldStart) :
    (cell.toList ++ [',']).foldl step ⟨place, records, fields, []⟩ =
      ⟨.fieldStart, records, cell :: fields, []⟩ := by
  rw [List.foldl_append, foldl_plain hcell (hplace.imp_right .inl), List.append_nil]
  have hend : ∀ place : Place, place = .recordStart ∨ place = .fieldStart ∨ place = .plain →
      step ⟨place, records, fields, cell.toList.reverse⟩ ',' =
        ⟨.fieldStart, records, cell :: fields, []⟩ := by
    rintro _ (rfl | rfl | rfl) <;> simp [step, unquoted, endField]
  refine hend _ ?_
  split_ifs
  · exact hplace.imp_right .inl
  · exact .inr (.inr rfl)

/-- An empty line is no record, so a record of one cell must not be empty. -/
theorem foldl_break {cell : String} (hcell : PlainChars cell.toList)
    (hplace : place = .fieldStart ∨ place = .recordStart ∧ cell ≠ "") :
    (cell.toList ++ ['\n']).foldl step ⟨place, records, fields, []⟩ =
      ⟨.recordStart, (cell :: fields).reverse :: records, [], []⟩ := by
  rw [List.foldl_append, foldl_plain hcell (hplace.symm.imp And.left .inl), List.append_nil]
  have hend : ∀ place : Place, place = .fieldStart ∨ place = .plain →
      step ⟨place, records, fields, cell.toList.reverse⟩ '\n' =
        ⟨.recordStart, (cell :: fields).reverse :: records, [], []⟩ := by
    rintro _ (rfl | rfl) <;> simp [step, unquoted, endRecord, endField]
  refine hend _ ?_
  split_ifs with hempty
  · exact .inl (hplace.resolve_right fun h => h.2 (String.toList_eq_nil_iff.mp hempty))
  · exact .inr rfl

/-- **A record is read as its cells.** -/
theorem foldl_line {record : List String} (hne : record ≠ [])
    (hcells : ∀ cell ∈ record, PlainChars cell.toList)
    (hplace : place = .fieldStart ∨ place = .recordStart ∧ record ≠ [""]) :
    (line record).foldl step ⟨place, records, fields, []⟩ =
      ⟨.recordStart, (fields.reverse ++ record) :: records, [], []⟩ := by
  unfold line
  induction record generalizing place fields with
  | nil => exact absurd rfl hne
  | cons cell more ih =>
    obtain ⟨hcell, hmore⟩ := List.forall_mem_cons.mp hcells
    rcases eq_or_ne more [] with rfl | hmore'
    · have hlast : place = .fieldStart ∨ place = .recordStart ∧ cell ≠ "" :=
        hplace.imp_right (And.imp_right fun h hcell => h (by rw [hcell]))
      rw [List.map_singleton, List.intercalate_singleton, foldl_break hcell hlast,
        List.reverse_cons]
    · have hfield : place = .recordStart ∨ place = .fieldStart := hplace.symm.imp_left And.left
      rw [List.map_cons, List.intercalate_cons_of_ne_nil (by simpa using hmore'), List.append_assoc,
        List.foldl_append, foldl_comma hcell hfield, ih hmore' hmore (.inl rfl), List.reverse_cons,
        List.append_assoc, List.singleton_append]

theorem foldl_lines {rows : List (List String)} (hne : ∀ row ∈ rows, row ≠ [] ∧ row ≠ [""])
    (hcells : ∀ row ∈ rows, ∀ cell ∈ row, PlainChars cell.toList) :
    (rows.flatMap line).foldl step ⟨.recordStart, records, [], []⟩ =
      ⟨.recordStart, rows.reverse ++ records, [], []⟩ := by
  induction rows generalizing records with
  | nil => rfl
  | cons row rows ih =>
    obtain ⟨hrow, hrows⟩ := List.forall_mem_cons.mp hne
    obtain ⟨hplain, hplains⟩ := List.forall_mem_cons.mp hcells
    rw [List.flatMap_cons, List.foldl_append, foldl_line hrow.1 hplain (.inr ⟨rfl, hrow.2⟩),
      List.reverse_nil, List.nil_append, ih hrows hplains, List.reverse_cons, List.append_assoc,
      List.singleton_append]

end

end Progress

/-- A line starts as its first cell. -/
theorem head?_line {cell : String} {c : Char} (hc : cell.toList.head? = some c)
    (record : List String) : (line (cell :: record)).head? = some c := by
  obtain ⟨cs, hcs⟩ := List.head?_eq_some_iff.mp hc
  unfold line
  rw [List.map_cons, hcs]
  rcases eq_or_ne (record.map (·.toList)) [] with h | h
  · rw [h, List.intercalate_singleton]
    rfl
  · rw [List.intercalate_cons_of_ne_nil h]
    rfl

/-- **A plainly written table is read as its records**, if none of them is an empty line and no byte
order mark is in front of them. -/
theorem records_joined {rows : List (List String)} (hne : ∀ row ∈ rows, row ≠ [] ∧ row ≠ [""])
    (hcells : ∀ row ∈ rows, ∀ cell ∈ row, PlainChars cell.toList)
    (hmark : ∀ c ∈ (rows.flatMap line).head?, c ≠ '\uFEFF') : records (joined rows) = rows := by
  have hdrop : dropMark (rows.flatMap line) = rows.flatMap line := by
    unfold dropMark
    split
    · next heq => exact absurd rfl (hmark _ (by rw [heq]; rfl))
    · rfl
  unfold records joined
  rw [String.toList_ofList, hdrop]
  change Progress.finish ((rows.flatMap line).foldl Progress.step ⟨.recordStart, [], [], []⟩) = rows
  rw [Progress.foldl_lines hne hcells, List.append_nil]
  exact List.reverse_reverse rows

end TickBacktest.Text.Delimited
