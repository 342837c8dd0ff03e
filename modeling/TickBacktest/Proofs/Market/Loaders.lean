import TickBacktest.Proofs.Json.Records
import TickBacktest.Proofs.Market.Sheet
import TickBacktest.Proofs.Strategy.InvalidTicks

/-! # The two loaders of market data

The loaders read the same ticks from a table and from a document of the same data but for one thing:
a missing volume is no number in the one and zero in the other (`ticksOfCsv_eq`, `ticksOfJson_eq`).
Repairing the ticks makes it zero in both, so the valid ticks are the same, and every run on them is
(`loaders_agree`). -/

namespace TickBacktest.Market

open Json (Source)
open Text (trim)
open Text.Delimited (PlainChars joined)

namespace Sheet

/-- The number in a column, which may not be there. -/
def value (s : Sheet) (name : String) (i : ℕ) : Option Float :=
  if name ∈ s.names then s.cell name i else none

/-- The tick of a row, with `volume` for a missing one. -/
def tick (s : Sheet) (volume : Float) (i : ℕ) : Tick Float where
  time := (s.value "t" i).getD missing
  mid := (s.value "mid" i).getD missing
  spread := (s.value "spread" i).getD missing
  bestBid := (s.value "best_bid" i).getD missing
  bestAsk := (s.value "best_ask" i).getD missing
  volume := (s.value "quantity" i).getD volume

end Sheet

/-! ## Cells -/

/-- A cell that is read as no number in any case of its letters is none. -/
theorem float?_of_sameName {text : String} (h : sameName text "nan" = true) :
    Decimal.float? text.toList = some (0 / 0) := by
  have hlower : text.toList.map Char.toLower = ['n', 'a', 'n'] := of_decide_eq_true h
  have hsign : Decimal.takeSign text.toList = (false, text.toList) := by
    unfold Decimal.takeSign
    split
    · next heq =>
      rw [heq] at hlower
      cases (List.cons.inj hlower).1
    · next heq =>
      rw [heq] at hlower
      cases (List.cons.inj hlower).1
    · rfl
  unfold Decimal.float?
  rw [hsign]
  dsimp only
  rw [hlower, if_neg (by decide), if_pos (by decide)]

theorem cell?_of_isCell {v : Option Float} {text : String} (h : IsCell v text)
    (hfinite : ∀ x ∈ v, x.isFinite = true) : cell? text = some (v.getD missing) := by
  unfold cell?
  cases h with
  | empty => rw [if_pos (by decide), Option.getD_none]
  | nan h => rw [if_pos (by rw [h, Bool.or_true]), Option.getD_none]
  | @number _ x h =>
    have hempty : text.isEmpty = false := by
      by_contra he
      have htext : text = "" := String.isEmpty_iff.mp (by simpa using he)
      rw [htext] at h
      cases h
    have hnan : sameName text "nan" = false := by
      by_contra hn
      have hread : some (0 / 0) = some x := (float?_of_sameName (by simpa using hn)).symm.trans h
      have hx := hfinite x rfl
      rw [← Option.some.inj hread] at hx
      exact absurd hx (by decide +kernel)
    rw [if_neg (by simp [hempty, hnan])]
    exact h

/-! ## The table -/

/-- The names of the columns differ by more than the case of their letters. -/
theorem eq_of_sameName :
    ∀ name ∈ columnNames, ∀ n ∈ columnNames, sameName name n = true → n = name := by
  decide

theorem not_sameName_volume : ∀ n ∈ columnNames, sameName "volume" n = false := by
  decide

section

variable {s : Sheet} {header : List String}

/-- A column is found in the place it has in the header. -/
theorem column?_spec (hheader : header.Perm s.names) {name : String} (hname : name ∈ columnNames) :
    (name ∉ s.names ∧ column? header name = none) ∨
      ∃ i, ∃ h : i < header.length, column? header name = some i ∧ header[i] = name := by
  unfold column?
  rcases hc : header.findIdx? (sameName name) with _ | i
  · refine .inl ⟨fun hmem => ?_, rfl⟩
    have hself : sameName name name = true := decide_eq_true rfl
    have := List.findIdx?_eq_none_iff.mp hc name (hheader.mem_iff.mpr hmem)
    rw [hself] at this
    cases this
  · obtain ⟨hi, hsame, -⟩ := List.findIdx?_eq_some_iff_getElem.mp hc
    have hknown : header[i] ∈ columnNames := s.known _ (hheader.mem_iff.mp (List.getElem_mem hi))
    exact .inr ⟨i, hi, rfl, eq_of_sameName name hname _ hknown hsame⟩

theorem column?_volume (hheader : header.Perm s.names) : column? header "volume" = none := by
  unfold column?
  rw [List.findIdx?_eq_none_iff]
  exact fun n hn => not_sameName_volume n (s.known n (hheader.mem_iff.mp hn))

theorem exists_column? (hheader : header.Perm s.names) {name : String}
    (hname : name ∈ ["t", "mid", "spread"]) : ∃ i, column? header name = some i := by
  have hmem := s.required name hname
  obtain ⟨habsent, -⟩ | ⟨i, -, hi, -⟩ := column?_spec hheader (s.known name hmem)
  · exact absurd hmem habsent
  · exact ⟨i, hi⟩

/-- The number in a column of a record is the one of the row. -/
theorem numberAt_column? (hheader : header.Perm s.names) {name : String}
    (hname : name ∈ columnNames) {record : List String} {i : ℕ}
    (hrecord : List.Forall₂ (fun name => IsCell (s.cell name i)) header record) (row : ℕ)
    (label : String) : numberAt record row label (column? header name) =
      .ok ((s.value name i).getD missing) := by
  unfold Sheet.value
  obtain ⟨habsent, hcolumn⟩ | ⟨k, hk, hcolumn, hkname⟩ := column?_spec hheader hname
  · rw [hcolumn, if_neg habsent]
    rfl
  · have hmem : name ∈ s.names := hheader.mem_iff.mp (hkname ▸ List.getElem_mem hk)
    have hk' : k < record.length := hrecord.length_eq ▸ hk
    have hcell : IsCell (s.cell name i) record[k] := by
      have := hrecord.get hk hk'
      simpa [hkname] using this
    unfold numberAt
    rw [hcolumn, if_pos hmem, Option.bind_some, List.getElem?_eq_getElem hk']
    dsimp only
    rw [cell?_of_isCell hcell fun x hx => s.finite hx]

theorem columns_eq (hheader : header.Perm s.names) : ∃ cs : Columns,
    columns header = .ok cs ∧ column? header "t" = some cs.time ∧
      column? header "mid" = some cs.mid ∧ column? header "spread" = some cs.spread ∧
      cs.bestBid = column? header "best_bid" ∧ cs.bestAsk = column? header "best_ask" ∧
      cs.volume = column? header "quantity" := by
  obtain ⟨time, htime⟩ := @exists_column? s header hheader "t" (by decide)
  obtain ⟨mid, hmid⟩ := @exists_column? s header hheader "mid" (by decide)
  obtain ⟨spread, hspread⟩ := @exists_column? s header hheader "spread" (by decide)
  refine ⟨⟨time, mid, spread, column? header "best_bid", column? header "best_ask",
    column? header "quantity"⟩, ?_, htime, hmid, hspread, rfl, rfl, rfl⟩
  unfold columns requiredColumn
  rw [htime, hmid, hspread, column?_volume hheader, Option.or_none]
  rfl

/-- What a table has for a missing volume: no number, and zero without a column for it. -/
def Sheet.missingVolume (s : Sheet) : Float := if "quantity" ∈ s.names then missing else 0

theorem tickOfRecord_eq (hheader : header.Perm s.names) {cs : Columns}
    (hcs : columns header = .ok cs) {record : List String} {i : ℕ}
    (hrecord : List.Forall₂ (fun name => IsCell (s.cell name i)) header record) (row : ℕ) :
    tickOfRecord cs record row = .ok (s.tick s.missingVolume i) := by
  obtain ⟨cs', hcs', ht, hm, hs, hb, ha, hv⟩ := columns_eq hheader
  cases hcs.symm.trans hcs'
  have hnumber : ∀ name ∈ columnNames, ∀ label,
      numberAt record row label (column? header name) = .ok ((s.value name i).getD missing) :=
    fun name hname label => numberAt_column? hheader hname hrecord row label
  unfold tickOfRecord
  rw [← ht, ← hm, ← hs, hb, ha, hnumber "t" (by decide), hnumber "mid" (by decide),
    hnumber "spread" (by decide), hnumber "best_bid" (by decide), hnumber "best_ask" (by decide)]
  obtain ⟨habsent, hnone⟩ | ⟨k, hk, hsome, hkname⟩ :=
    @column?_spec s header hheader "quantity" (by decide)
  · have hvalue : s.value "quantity" i = none := if_neg habsent
    have hzero : s.missingVolume = 0 := if_neg habsent
    rw [hv, hnone]
    unfold Sheet.tick
    rw [hvalue, hzero]
    rfl
  · have hmem : "quantity" ∈ s.names := hheader.mem_iff.mp (hkname ▸ List.getElem_mem hk)
    have hmissing : s.missingVolume = missing := if_pos hmem
    have hvolume : (cs.volume.isNone = true) = False := by
      rw [hv, hsome]
      simp
    unfold Sheet.tick
    rw [hmissing]
    simp only [hvolume, if_false, ok_bind]
    rw [hv, hnumber "quantity" (by decide)]
    rfl

/-- **The ticks of a table** are those of the data. -/
theorem ticksOfCsv_eq {text : String} (h : s.IsCsv text) :
    ticksOfCsv text = .ok ((List.range s.rows).map (s.tick s.missingVolume)) := by
  obtain ⟨header, body, hheader, hrecords, hbody⟩ := h
  obtain ⟨cs, hcs, -⟩ := columns_eq hheader
  unfold ticksOfCsv
  rw [hrecords]
  dsimp only
  unfold ticksOfTable
  rw [hcs, ok_bind, mapM_ok_iff, List.forall₂_map_right_iff]
  clear hrecords
  generalize List.range s.rows = indices at hbody
  generalize 1 = row
  induction hbody generalizing row with
  | nil => exact .nil
  | cons hrecord _ ih =>
    refine .cons ?_ (ih (row + 1))
    dsimp only
    rw [if_pos hrecord.length_eq.symm, tickOfRecord_eq hheader hcs hrecord]

end

/-! ## The document -/

section

variable {s : Sheet}

/-- The values of a column of the data. -/
def Sheet.column (s : Sheet) (name : String) : List (Option Float) :=
  (List.range s.rows).map (s.cell name)

theorem columnOf?_eq {name : String} {items : List Source}
    (h : List.Forall₂ (fun i => IsEntry (s.cell name i)) (List.range s.rows) items) :
    columnOf? (.array items) = some (s.column name) := by
  unfold columnOf? Sheet.column
  rw [mapM_some_iff, List.forall₂_map_right_iff]
  refine h.flip.imp fun x i hx => ?_
  change IsEntry (s.cell name i) x at hx
  generalize s.cell name i = v at hx
  cases hx with
  | null => rfl
  | number n => rfl

/-- The columns of the data that need not be there. -/
def Sheet.optionalColumn (s : Sheet) (name : String) : Option (List (Option Float)) :=
  if name ∈ s.names then some (s.column name) else none

/-- The columns of the data. -/
def Sheet.columnData (s : Sheet) : ColumnData where
  time := s.column "t"
  mid := s.column "mid"
  spread := s.column "spread"
  bestBid := s.optionalColumn "best_bid"
  bestAsk := s.optionalColumn "best_ask"
  quantity := s.optionalColumn "quantity"

section

variable {header : List String} {items : String → List Source}

theorem field?_columns (hheader : header.Perm s.names) (name : String) :
    Source.field? (header.map fun name => (some name, .array (items name))) name =
      some (if name ∈ s.names then some (.array (items name)) else none) := by
  have hnodup : ((header.map fun name => (some name, Source.array (items name))).map
      Prod.fst).Nodup := by
    rw [List.map_map]
    exact (hheader.nodup_iff.mpr s.nodup).map (Option.some_injective String)
  by_cases hname : name ∈ s.names
  · rw [if_pos hname]
    exact Source.field?_of_mem hnodup (List.mem_map.mpr ⟨name, hheader.mem_iff.mpr hname, rfl⟩)
  · rw [if_neg hname]
    refine Source.field?_of_not_mem fun hmem => hname (hheader.mem_iff.mp ?_)
    simpa using hmem

theorem record?_columns (hheader : header.Perm s.names) :
    Source.record? columnNames (.object (header.map fun name => (some name, .array (items name)))) =
      some (columnNames.map fun name =>
        if name ∈ s.names then some (.array (items name)) else none) := by
  refine Source.record?_object ?_ ?_
  · intro e he
    obtain ⟨name, -, rfl⟩ := List.mem_map.mp he
    rfl
  · rw [List.forall₂_map_right_iff, List.forall₂_same]
    exact fun name _ => field?_columns hheader name

theorem optionalColumn?_eq
    (hitems : ∀ name ∈ s.names, columnOf? (.array (items name)) = some (s.column name))
    (name : String) :
    optionalColumn? (if name ∈ s.names then some (.array (items name)) else none) =
      some (s.optionalColumn name) := by
  unfold Sheet.optionalColumn
  by_cases hname : name ∈ s.names
  · rw [if_pos hname, if_pos hname]
    change (columnOf? _).map some = _
    rw [hitems name hname]
    rfl
  · rw [if_neg hname, if_neg hname]
    rfl

/-- The object of the columns is read as the columns. -/
theorem ofSource?_eq (hheader : header.Perm s.names)
    (hitems : ∀ name ∈ s.names, columnOf? (.array (items name)) = some (s.column name)) :
    ColumnData.ofSource? (.object (header.map fun name => (some name, .array (items name)))) =
      some s.columnData := by
  have hrecord := @record?_columns s header items hheader
  have hrequired : ∀ name ∈ ["t", "mid", "spread"], name ∈ s.names ∧
      columnOf? (.array (items name)) = some (s.column name) :=
    fun name hname => ⟨s.required name hname, hitems name (s.required name hname)⟩
  simp only [List.forall_mem_cons] at hrequired
  obtain ⟨⟨ht, htime⟩, ⟨hm, hmid⟩, ⟨hs, hspread⟩, -⟩ := hrequired
  unfold columnNames at hrecord
  simp only [List.map_cons, List.map_nil, if_pos ht, if_pos hm, if_pos hs] at hrecord
  unfold ColumnData.ofSource?
  simp only [hrecord, Option.bind_eq_bind, Option.bind_some, htime, hmid, hspread,
    optionalColumn?_eq hitems]
  rfl

end

theorem values_column {name : String} (hname : name ∈ s.names) (otherwise : Float) :
    ColumnData.values s.rows otherwise (some (s.column name)) =
      (List.range s.rows).map fun i => (s.value name i).getD otherwise := by
  unfold ColumnData.values Sheet.column
  dsimp only
  rw [List.map_map]
  refine List.map_congr_left fun i _ => ?_
  rw [Function.comp_apply, Sheet.value, if_pos hname]

theorem values_optionalColumn (name : String) (otherwise : Float) :
    ColumnData.values s.rows otherwise (s.optionalColumn name) =
      (List.range s.rows).map fun i => (s.value name i).getD otherwise := by
  unfold Sheet.optionalColumn
  by_cases hname : name ∈ s.names
  · rw [if_pos hname]
    exact values_column hname otherwise
  · have hvalue : ∀ i, (s.value name i).getD otherwise = otherwise := by
      intro i
      rw [Sheet.value, if_neg hname, Option.getD_none]
    rw [if_neg hname]
    simp only [hvalue]
    unfold ColumnData.values
    dsimp only
    rw [List.map_const', List.length_range]

theorem length_column (name : String) : (s.column name).length = s.rows := by
  rw [Sheet.column, List.length_map, List.length_range]

/-- The columns that are there are all as long as the times. -/
theorem length_of_mem_others {e : String × ℕ} (he : e ∈ s.columnData.others) : e.2 = s.rows := by
  obtain ⟨⟨name, column⟩, hmem, hmap⟩ := List.mem_filterMap.mp he
  obtain ⟨c, hc, rfl⟩ := Option.map_eq_some_iff.mp hmap
  have hcolumn : ∃ n, column = some (s.column n) ∨ column = s.optionalColumn n := by
    simp only [List.mem_cons, List.not_mem_nil, or_false, Prod.mk.injEq] at hmem
    rcases hmem with ⟨-, h⟩ | ⟨-, h⟩ | ⟨-, h⟩ | ⟨-, h⟩ | ⟨-, h⟩
    · exact ⟨"mid", .inl h⟩
    · exact ⟨"spread", .inl h⟩
    · exact ⟨"best_bid", .inr h⟩
    · exact ⟨"best_ask", .inr h⟩
    · exact ⟨"quantity", .inr h⟩
  obtain ⟨n, rfl | rfl⟩ := hcolumn
  · cases hc
    exact length_column n
  · unfold Sheet.optionalColumn at hc
    split_ifs at hc
    cases hc
    exact length_column n

/-- **The ticks of a document** are those of the data, with zero for a missing volume. -/
theorem ticksOfJson_eq {text : String} (h : s.IsJson text) :
    ticksOfJson text = .ok ((List.range s.rows).map (s.tick 0)) := by
  obtain ⟨header, items, hheader, hread, hitems⟩ := h
  have hrequired : ∀ name ∈ ["t", "mid", "spread"], ∀ otherwise,
      ColumnData.values s.rows otherwise (some (s.column name)) =
        (List.range s.rows).map fun i => (s.value name i).getD otherwise :=
    fun name hname otherwise => values_column (s.required name hname) otherwise
  have hrows : s.columnData.time.length = s.rows := length_column "t"
  unfold ticksOfJson
  rw [hread, Option.bind_some,
    ofSource?_eq hheader fun name hname => columnOf?_eq (hitems name hname)]
  dsimp only
  unfold ColumnData.ticks
  dsimp only
  -- no column is longer or shorter than the times
  rw [hrows, List.find?_eq_none.mpr fun e he => by simp [length_of_mem_others he]]
  unfold Sheet.columnData
  dsimp only
  rw [hrequired "t" (by decide), hrequired "mid" (by decide), hrequired "spread" (by decide),
    values_optionalColumn, values_optionalColumn, values_optionalColumn]
  rw [List.zip_map', List.zip_map', List.zip_map', List.zip_map', List.zip_map', List.map_map]
  rfl

end

/-! ## The same ticks -/

/-- A volume that is missing is repaired to zero, whether it was no number or zero already. -/
theorem validTicks_tick {s : Sheet} {v : Float} (hv : v = missing ∨ v = 0) (indices : List ℕ) :
    validTicks (indices.map (s.tick v)) = validTicks (indices.map (s.tick 0)) := by
  have hvalid : ∀ i, (s.tick v i).isValid = (s.tick 0 i).isValid := fun i => rfl
  have hrepaired : ∀ i, (s.tick v i).repaired = (s.tick 0 i).repaired := by
    intro i
    have hvolume : (if Scalar.isNaN ((s.value "quantity" i).getD v) then 0
        else (s.value "quantity" i).getD v) =
        (if Scalar.isNaN ((s.value "quantity" i).getD 0) then 0
          else (s.value "quantity" i).getD 0 : Float) := by
      rcases s.value "quantity" i with _ | x
      · rw [Option.getD_none, Option.getD_none]
        rcases hv with rfl | rfl
        · decide +kernel
        · rfl
      · rfl
    unfold Tick.repaired
    simp only [Tick.mk.injEq]
    exact ⟨rfl, rfl, rfl, rfl, rfl, hvolume⟩
  unfold validTicks
  rw [List.filter_map, List.filter_map, List.map_map, List.map_map]
  have hfilter : ((fun t => Tick.isValid t) ∘ s.tick v) = ((fun t => t.isValid) ∘ s.tick 0) :=
    funext hvalid
  rw [hfilter]
  exact List.map_congr_left fun i _ => hrepaired i

/-- **The two loaders agree.** -/
theorem loaders_agree {s : Sheet} {csv json : String} (hcsv : s.IsCsv csv) (hjson : s.IsJson json) :
    ∃ ts us, ticksOfCsv csv = .ok ts ∧ ticksOfJson json = .ok us ∧
      validTicks ts = validTicks us ∧ Strategy.SameRuns ts us := by
  have hvalid : validTicks ((List.range s.rows).map (s.tick s.missingVolume)) =
      validTicks ((List.range s.rows).map (s.tick 0)) := by
    refine validTicks_tick ?_ _
    unfold Sheet.missingVolume
    split_ifs
    · exact .inl rfl
    · exact .inr rfl
  exact ⟨_, _, ticksOfCsv_eq hcsv, ticksOfJson_eq hjson, hvalid,
    Strategy.sameRuns_of_validTicks_eq hvalid⟩

/-- Two rows, each with something missing. -/
def twoRowsCell : String → ℕ → Option Float
  | "t", 0 => some 0
  | "t", 1 => some 0.5
  | "mid", 0 => some 100
  | "spread", 0 => some 0.2
  | "quantity", 1 => some 5
  | _, _ => none

theorem isFinite_twoRowsCell {name : String} {i : ℕ} {x : Float} (h : twoRowsCell name i = some x) :
    x.isFinite = true := by
  unfold twoRowsCell at h
  split at h
  all_goals
    cases h
    try decide +kernel

def twoRows : Sheet where
  names := ["t", "mid", "spread", "quantity"]
  rows := 2
  cell := twoRowsCell
  nodup := by decide
  known := by decide
  required := by decide
  finite := isFinite_twoRowsCell

/-- The rows as a table. -/
def twoRowsTable : String := "t,mid,spread,quantity\n0,100.0,0.2,\n 0.5,NaN,,5\n"

/-- The texts in its cells. -/
def twoRowsText : String → ℕ → String
  | "t", 0 => "0"
  | "t", 1 => " 0.5"
  | "mid", 0 => "100.0"
  | "mid", 1 => "NaN"
  | "spread", 0 => "0.2"
  | "quantity", 1 => "5"
  | _, _ => ""

/-- The rows as a document, with its columns in another order. -/
def twoRowsDocument : String := "\x7b\"mid\":[100.0,null],\"t\":[0.0,0.5]," ++
  "\"quantity\":[null,5.0],\"spread\":[0.2,null]\x7d"

/-- The entries of its columns. -/
def twoRowsItems : String → List Json
  | "t" => [.number (.float 0), .number (.float 0.5)]
  | "mid" => [.number (.float 100), .null]
  | "spread" => [.number (.float 0.2), .null]
  | _ => [.null, .number (.float 5)]

theorem loaders_agree_twoRows : ∃ ts us, ticksOfCsv twoRowsTable = .ok ts ∧
    ticksOfJson twoRowsDocument = .ok us ∧ validTicks ts = validTicks us ∧
      Strategy.SameRuns ts us := by
  have hcsv : twoRows.IsCsv twoRowsTable := by
    have htext : joined (twoRows.names :: (List.range twoRows.rows).map fun i =>
        twoRows.names.map (twoRowsText · i)) = twoRowsTable := by
      decide +kernel
    have hplain : ∀ name i, PlainChars (twoRowsText name i).toList := by
      intro name i
      unfold twoRowsText
      split
      all_goals exact Text.forall_mem_of_all (by decide)
    have hcells : ∀ name ∈ ["t", "mid", "spread", "quantity"], ∀ i ∈ [0, 1],
        IsCell (twoRowsCell name i) (trim (twoRowsText name i)) := by
      simp only [List.forall_mem_cons, List.not_mem_nil, false_imp_iff, implies_true, and_true]
      exact ⟨⟨.number (by decide +kernel), .number (by decide +kernel)⟩,
        ⟨.number (by decide +kernel), .nan (by decide +kernel)⟩,
        ⟨.number (by decide +kernel), .empty⟩, .empty, .number (by decide +kernel)⟩
    rw [← htext]
    exact isCsv_joined (.refl twoRows.names) hplain fun name hname i hi =>
      hcells name hname i (List.mem_range.mpr hi)
  have hjson : twoRows.IsJson twoRowsDocument := by
    have htext : (Json.object (["mid", "t", "quantity", "spread"].map fun name =>
        (name, .array (twoRowsItems name)))).compact = twoRowsDocument := by
      decide +kernel
    have hread : ∀ name ∈ ["t", "mid", "spread", "quantity"],
        ∀ x ∈ twoRowsItems name, ∀ n ∈ x.numbers, n.ReadsBack := by
      decide +kernel
    have hitems : ∀ name ∈ ["t", "mid", "spread", "quantity"], List.Forall₂
        (fun i x => IsEntry (twoRowsCell name i) x.toSource) [0, 1] (twoRowsItems name) := by
      simp only [List.forall_mem_cons, List.not_mem_nil, false_imp_iff, implies_true, and_true]
      exact ⟨.cons (.number (.float 0)) (.cons (.number (.float 0.5)) .nil),
        .cons (.number (.float 100)) (.cons .null .nil),
        .cons (.number (.float 0.2)) (.cons .null .nil),
        .cons .null (.cons (.number (.float 5)) .nil)⟩
    rw [← htext]
    exact isJson_compact (by decide) hread hitems
  exact loaders_agree hcsv hjson

end TickBacktest.Market
