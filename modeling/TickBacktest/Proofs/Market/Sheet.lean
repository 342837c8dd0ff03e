import Mathlib.Data.List.Nodup
import TickBacktest.Market.Table
import TickBacktest.Proofs.Json.Documents
import TickBacktest.Proofs.Text.Delimited

/-! # Market data and its texts

Market data (`Sheet`) as a comma-separated table (`Sheet.IsCsv`) and as a document of columns
(`Sheet.IsJson`): what the readers of the two formats deliver, whatever order the columns have and
however the numbers are written. A table without quotes is one (`isCsv_joined`), and so is a
document without blanks (`isJson_compact`). -/

namespace TickBacktest.Market

open Json (Source)
open Text (trim)
open Text.Delimited (PlainChars joined)

/-- The names of the columns of a document. -/
def columnNames : List String := ["t", "mid", "spread", "best_bid", "best_ask", "quantity"]

/-- **Market data**: some of the columns, the first three among them, with as many rows each, and in
each row a finite number or nothing. -/
structure Sheet where
  names : List String
  rows : ℕ
  cell : String → ℕ → Option Float
  nodup : names.Nodup
  known : ∀ name ∈ names, name ∈ columnNames
  required : ∀ name ∈ ["t", "mid", "spread"], name ∈ names
  finite : ∀ {name i x}, cell name i = some x → x.isFinite = true

/-- The text of a cell: empty or `nan` for a missing number. -/
inductive IsCell : Option Float → String → Prop where
  | empty : IsCell none ""
  | nan {text : String} : sameName text "nan" = true → IsCell none text
  | number {text : String} {x : Float} : Decimal.float? text.toList = some x → IsCell (some x) text

/-- The entry of a column: `null` for a missing number. -/
inductive IsEntry : Option Float → Source → Prop where
  | null : IsEntry none .null
  | number (n : Json.Number) : IsEntry (some n.toFloat) (.number (some n))

namespace Sheet

/-- The text is a table of the data: its records are a header and a record for each row, with the
columns in any order. -/
def IsCsv (s : Sheet) (text : String) : Prop :=
  ∃ header body, header.Perm s.names ∧
    (Text.Delimited.records text).map (·.map trim) = header :: body ∧
    List.Forall₂ (fun i record => List.Forall₂ (fun name => IsCell (s.cell name i)) header record)
      (List.range s.rows) body

/-- The text is a document of the data: it is read as an object of its columns, in any order. -/
def IsJson (s : Sheet) (text : String) : Prop :=
  ∃ (header : List String) (items : String → List Source), header.Perm s.names ∧
    Json.read? text = some (.object (header.map fun name => (some name, .array (items name)))) ∧
    ∀ name ∈ s.names, List.Forall₂ (fun i => IsEntry (s.cell name i)) (List.range s.rows)
      (items name)

end Sheet

/-! ## Texts of the data -/

theorem plain_columnNames : ∀ name ∈ columnNames, trim name = name ∧ name.toList ≠ [] ∧
    name.toList.all (fun c => decide
      ((c ≠ ',' ∧ c ≠ '"' ∧ c ≠ '\r' ∧ c ≠ '\n') ∧ c ≠ '\uFEFF')) = true := by
  decide

theorem two_le_length {s : Sheet} {header : List String} (hheader : header.Perm s.names) :
    2 ≤ header.length := by
  have ht : "t" ∈ header := hheader.mem_iff.mpr (s.required "t" (by decide))
  have hm : "mid" ∈ header := hheader.mem_iff.mpr (s.required "mid" (by decide))
  rcases header with _ | ⟨name, _ | ⟨next, more⟩⟩
  · cases ht
  · exact absurd ((List.mem_singleton.mp ht).trans (List.mem_singleton.mp hm).symm) (by decide)
  · simp

/-- A row of two cells or more is not taken for an empty line. -/
theorem ne_of_two_le_length {row : List String} (h : 2 ≤ row.length) : row ≠ [] ∧ row ≠ [""] := by
  constructor
  · rintro rfl
    exact absurd h (by decide)
  · rintro rfl
    exact absurd h (by decide)

/-- **The data can be written as a table**, with any texts of the numbers that need no quotes. -/
theorem isCsv_joined {s : Sheet} {header : List String} (hheader : header.Perm s.names)
    {texts : String → ℕ → String} (hplain : ∀ name i, PlainChars (texts name i).toList)
    (hcells : ∀ name ∈ s.names, ∀ i < s.rows, IsCell (s.cell name i) (trim (texts name i))) :
    s.IsCsv (joined (header :: (List.range s.rows).map fun i => header.map (texts · i))) := by
  have hnames := fun name (hname : name ∈ header) =>
    plain_columnNames name (s.known name (hheader.mem_iff.mp hname))
  have hlength := two_le_length hheader
  have hrecords := @Text.Delimited.records_joined
    (header :: (List.range s.rows).map fun i => header.map (texts · i)) ?_ ?_ ?_
  · refine ⟨header, (List.range s.rows).map fun i => header.map fun name => trim (texts name i),
      hheader, ?_, ?_⟩
    · have htrim : header.map trim = header :=
        (List.map_congr_left fun name hname => (hnames name hname).1).trans (List.map_id header)
      rw [hrecords, List.map_cons, htrim, List.map_map]
      simp only [Function.comp_def, List.map_map]
    · rw [List.forall₂_map_right_iff, List.forall₂_same]
      intro i hi
      rw [List.forall₂_map_right_iff, List.forall₂_same]
      exact fun name hname => hcells name (hheader.mem_iff.mp hname) i (List.mem_range.mp hi)
  · refine List.forall_mem_cons.mpr ⟨ne_of_two_le_length hlength, ?_⟩
    intro row hrow
    obtain ⟨i, -, rfl⟩ := List.mem_map.mp hrow
    refine ne_of_two_le_length ?_
    rwa [List.length_map]
  · refine List.forall_mem_cons.mpr ⟨fun name hname c hc =>
      (Text.forall_mem_of_all (hnames name hname).2.2 c hc).1, ?_⟩
    intro row hrow cell hcell
    obtain ⟨i, -, rfl⟩ := List.mem_map.mp hrow
    obtain ⟨name, -, rfl⟩ := List.mem_map.mp hcell
    exact hplain name i
  · rcases header with _ | ⟨name, more⟩
    · exact absurd hlength (by decide)
    · obtain ⟨-, hne, hchars⟩ := hnames name List.mem_cons_self
      obtain ⟨c, cs, hcs⟩ := List.exists_cons_of_ne_nil hne
      rw [List.flatMap_cons, List.head?_append,
        Text.Delimited.head?_line (by rw [hcs, List.head?_cons]) more]
      rintro d hd
      cases hd
      exact (Text.forall_mem_of_all hchars c (by rw [hcs]; exact List.mem_cons_self)).2

/-- **The data can be written as a document**, with any texts of the numbers that are read back. -/
theorem isJson_compact {s : Sheet} {header : List String} (hheader : header.Perm s.names)
    {items : String → List Json}
    (hread : ∀ name ∈ s.names, ∀ x ∈ items name, ∀ n ∈ x.numbers, n.ReadsBack)
    (hitems : ∀ name ∈ s.names, List.Forall₂ (fun i x => IsEntry (s.cell name i) x.toSource)
      (List.range s.rows) (items name)) :
    s.IsJson (Json.object (header.map fun name => (name, .array (items name)))).compact := by
  have hnumbers : ∀ n ∈ (Json.object (header.map fun name => (name, .array (items name)))).numbers,
      n.ReadsBack := by
    rw [Json.numbers_object, List.flatMap_map]
    intro n hn
    obtain ⟨name, hname, hn⟩ := List.mem_flatMap.mp hn
    rw [Json.numbers_array] at hn
    obtain ⟨x, hx, hn⟩ := List.mem_flatMap.mp hn
    exact hread name (hheader.mem_iff.mp hname) x hx n hn
  refine ⟨header, fun name => (items name).map Json.toSource, hheader, ?_, fun name hname => ?_⟩
  · rw [Json.read?_compact hnumbers, Json.toSource, Json.entriesToSource_eq, List.map_map]
    simp only [Function.comp_def, Json.toSource, Json.itemsToSource_eq]
  · rw [List.forall₂_map_right_iff]
    exact hitems name hname

end TickBacktest.Market
