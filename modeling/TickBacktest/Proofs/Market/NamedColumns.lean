import Mathlib.Data.List.Basic
import TickBacktest.Market.Table
import TickBacktest.Proofs.Outcome

/-! # Columns are found by name

A table is a header and records; its columns (`columnsOf`) are the other way to cut it. The reader
of a table asks for the cells of eight names and for nothing else (`ticksOfTable_eq_ticksByName`).
What it gets for a name does not change when the columns are put into another order, when the case
of their names changes, or when columns of other names come or go (`Rearranged`,
`cellsNamed_rearranged`), so the ticks do not either, nor does the fault and the row in which it is
found (`ticksOfCsv_rearranged`). -/

namespace TickBacktest.Market

open Text (trim)

/-- A column of a table: its name and its cells from the top down. -/
structure Column where
  name : String
  cells : List String

/-- The columns of a table. -/
def columnsOf (header : List String) (records : List (List String)) : List Column :=
  header.mapIdx fun j name => ⟨name, records.map (·.getD j "")⟩

/-- The names that columns are asked for. -/
def namesAsked : List String :=
  ["t", "time", "mid", "spread", "best_bid", "best_ask", "quantity", "volume"]

/-- **The same data in another layout**: the columns are in another order, their names are in
another case, or columns that nobody asks for have come or gone. -/
inductive Rearranged : List Column → List Column → Prop
  | permuted {cs ds : List Column} (h : cs.Perm ds) : Rearranged cs ds
  | recased {cs ds : List Column}
    (h : List.Forall₂ (fun c d => sameName c.name d.name = true ∧ c.cells = d.cells) cs ds) :
    Rearranged cs ds
  | inserted {c : Column} {cs : List Column}
    (h : ∀ name ∈ namesAsked, sameName name c.name = false) : Rearranged cs (c :: cs)
  | removed {c : Column} {cs : List Column}
    (h : ∀ name ∈ namesAsked, sameName name c.name = false) : Rearranged (c :: cs) cs
  | trans {cs ds es : List Column} (h : Rearranged cs ds) (h' : Rearranged ds es) :
    Rearranged cs es

/-- The cells of the columns of a name. -/
def cellsNamed (cs : List Column) (name : String) : List (List String) :=
  (cs.filter fun c => sameName name c.name).map (·.cells)

/-! ## What is found under a name -/

section

variable {s t u : String}

theorem sameName_comm : sameName s t = sameName t s := by
  unfold sameName
  exact decide_eq_decide.mpr eq_comm

theorem sameName_trans (h : sameName s t = true) (h' : sameName t u = true) :
    sameName s u = true :=
  decide_eq_true ((of_decide_eq_true h).trans (of_decide_eq_true h'))

theorem sameName_congr (h : sameName t u = true) : sameName s t = sameName s u := by
  have hlower : t.toList.map Char.toLower = u.toList.map Char.toLower := of_decide_eq_true h
  unfold sameName
  rw [hlower]

end

theorem eq_of_perm_of_length_le_one {β : Type} {l l' : List β} (h : l.Perm l')
    (hlen : l.length ≤ 1) : l = l' := by
  obtain _ | ⟨a, _ | ⟨b, l⟩⟩ := l
  · exact (List.nil_perm.mp h).symm
  · exact List.singleton_perm.mp h
  · rw [List.length_cons, List.length_cons] at hlen
    omega

/-- **Another layout has the same cells under each name that is asked for**, if none is there
twice. -/
theorem cellsNamed_rearranged {cs ds : List Column} (h : Rearranged cs ds)
    (hone : ∀ name ∈ namesAsked, (cellsNamed cs name).length ≤ 1) :
    ∀ name ∈ namesAsked, cellsNamed cs name = cellsNamed ds name := by
  induction h with
  | permuted h =>
    intro name hname
    exact eq_of_perm_of_length_le_one ((h.filter _).map _) (hone name hname)
  | recased h =>
    clear hone
    intro name _
    unfold cellsNamed
    induction h with
    | nil => rfl
    | @cons c d cs ds hcd _ ih =>
      rw [List.filter_cons, List.filter_cons, sameName_congr hcd.1]
      split
      · rw [List.map_cons, List.map_cons, hcd.2, ih]
      · exact ih
  | inserted h =>
    intro name hname
    unfold cellsNamed
    rw [List.filter_cons_of_neg (by rw [h name hname]; decide)]
  | removed h =>
    intro name hname
    unfold cellsNamed
    rw [List.filter_cons_of_neg (by rw [h name hname]; decide)]
  | trans _ _ ih ih' =>
    have hfirst := ih hone
    intro name hname
    rw [hfirst name hname]
    exact ih' (fun n hn => hfirst n hn ▸ hone n hn) name hname

/-! ## Reading by name -/

/-- The number in a cell, if there is one. -/
def numberIn (name : String) (row : ℕ) : Option String → Except DataError Float
  | none => .ok missing
  | some cell =>
    match cell? cell with
    | some x => .ok x
    | none => .error (.badCell name cell row)

/-- The tick of a row of named columns. Rows are counted from 1. -/
def tickByName (cells : String → Option (List String)) (i : ℕ) : Except DataError (Tick Float) := do
  return {
    time := ← numberIn "t" (i + 1) (((cells "t").or (cells "time")).bind (·[i]?))
    mid := ← numberIn "mid" (i + 1) ((cells "mid").bind (·[i]?))
    spread := ← numberIn "spread" (i + 1) ((cells "spread").bind (·[i]?))
    bestBid := ← numberIn "best_bid" (i + 1) ((cells "best_bid").bind (·[i]?))
    bestAsk := ← numberIn "best_ask" (i + 1) ((cells "best_ask").bind (·[i]?))
    volume := ← if ((cells "quantity").or (cells "volume")).isNone then .ok 0
      else numberIn "quantity" (i + 1) (((cells "quantity").or (cells "volume")).bind (·[i]?)) }

/-- What must be there. -/
def required {β : Type} (name : String) : Option β → Except DataError β
  | some b => .ok b
  | none => .error (.missingColumn name)

/-- The ticks of named columns. -/
def ticksByName (cells : String → Option (List String)) : Except DataError (List (Tick Float)) := do
  let _ ← required "time" ((cells "t").or (cells "time"))
  let mids ← required "mid" (cells "mid")
  let _ ← required "spread" (cells "spread")
  (List.range mids.length).mapM (tickByName cells)

section

variable {header : List String} {records : List (List String)}

theorem names_columnsOf : (columnsOf header records).map (·.name) = header := by
  refine List.ext_getElem? fun j => ?_
  unfold columnsOf
  rw [List.getElem?_map, List.getElem?_mapIdx, Option.map_map]
  exact Option.map_id'

theorem lt_length_of_column? {name : String} {j : ℕ} (h : column? header name = some j) :
    j < header.length :=
  (List.findIdx?_eq_some_iff_getElem.mp h).1

/-- The cells in one place of each record. -/
def cellsAt (records : List (List String)) (j : ℕ) : List String := records.map (·.getD j "")

/-- The cells of a name are those in the place where the header has the name first. -/
theorem head?_cellsNamed (name : String) : (cellsNamed (columnsOf header records) name).head? =
    (column? header name).map (cellsAt records) := by
  have hidx : (columnsOf header records).findIdx? (fun c => sameName name c.name) =
      column? header name := by
    unfold column?
    conv_rhs => rw [← @names_columnsOf header records]
    rw [List.findIdx?_map]
    rfl
  unfold cellsNamed
  rw [List.head?_map, List.head?_filter, List.find?_eq_bind_findIdx?_getElem?, hidx]
  rcases hj : column? header name with _ | j
  · rfl
  · unfold columnsOf
    rw [Option.bind_some, List.getElem?_mapIdx, List.getElem?_eq_getElem (lt_length_of_column? hj)]
    rfl

/-- The number in a record is that in the row of the column. -/
theorem numberAt_eq {i : ℕ} (hi : i < records.length) {o : Option ℕ}
    (ho : ∀ j ∈ o, j < (records[i]).length) (name : String) (row : ℕ) :
    numberAt records[i] row name o =
      numberIn name row ((o.map (cellsAt records)).bind (·[i]?)) := by
  have hcell : o.bind (records[i][·]?) = (o.map (cellsAt records)).bind (·[i]?) := by
    rcases o with _ | j
    · rfl
    · have hj := ho j rfl
      unfold cellsAt
      rw [Option.map_some, Option.bind_some, Option.bind_some, List.getElem?_map,
        List.getElem?_eq_getElem hi, Option.map_some, List.getElem?_eq_getElem hj,
        List.getD_eq_getElem?_getD, List.getElem?_eq_getElem hj, Option.getD_some]
  unfold numberAt
  rw [hcell]
  generalize (o.map (cellsAt records)).bind (·[i]?) = cell
  rcases cell with _ | cell <;> rfl

theorem requiredColumn_eq_required (name : String) :
    requiredColumn header name = required name (column? header name) := by
  unfold requiredColumn
  rcases column? header name <;> rfl

theorem columns_eq_required : columns header = do
    let time ← required "time" ((column? header "t").or (column? header "time"))
    let mid ← required "mid" (column? header "mid")
    let spread ← required "spread" (column? header "spread")
    return ⟨time, mid, spread, column? header "best_bid", column? header "best_ask",
      (column? header "quantity").or (column? header "volume")⟩ := by
  unfold columns
  rw [requiredColumn_eq_required, requiredColumn_eq_required, requiredColumn_eq_required]
  rcases column? header "t" with _ | t <;> rfl

section

variable {cells : String → Option (List String)}
  (hcells : ∀ name, cells name = (column? header name).map (cellsAt records))

include hcells

/-- The tick of a record is that of its row. -/
theorem tickOfRecord_eq_tickByName {i t m s : ℕ} (hi : i < records.length)
    (hwidth : (records[i]).length = header.length)
    (ht : (column? header "t").or (column? header "time") = some t)
    (hm : column? header "mid" = some m) (hs : column? header "spread" = some s) :
    tickOfRecord ⟨t, m, s, column? header "best_bid", column? header "best_ask",
      (column? header "quantity").or (column? header "volume")⟩ records[i] (i + 1) =
        tickByName cells i := by
  have hone : ∀ name, ∀ j ∈ column? header name, j < (records[i]).length :=
    fun name j hj => hwidth ▸ lt_length_of_column? hj
  have htwo : ∀ name name', ∀ j ∈ (column? header name).or (column? header name'),
      j < (records[i]).length := fun name name' j hj =>
    (Option.or_eq_some_iff.mp hj).elim (hone name j) fun h => hone name' j h.2
  unfold tickOfRecord tickByName
  dsimp only
  rw [← ht, ← hm, ← hs, numberAt_eq hi (htwo "t" "time"), numberAt_eq hi (hone "mid"),
    numberAt_eq hi (hone "spread"), numberAt_eq hi (hone "best_bid"),
    numberAt_eq hi (hone "best_ask"), numberAt_eq hi (htwo "quantity" "volume"), Option.map_or,
    Option.map_or]
  have hvolume : (((column? header "quantity").map (cellsAt records)).or
      ((column? header "volume").map (cellsAt records))).isNone =
        ((column? header "quantity").or (column? header "volume")).isNone := by
    rw [← Option.map_or, Option.isNone_map]
  simp only [hcells, hvolume]

/-- **The ticks of a table are those of its columns by their names.** -/
theorem ticksOfTable_eq_ticksByName (hwidth : ∀ record ∈ records, record.length = header.length) :
    ticksOfTable header records = ticksByName cells := by
  unfold ticksOfTable ticksByName
  rw [columns_eq_required, hcells "t", hcells "time", hcells "mid", hcells "spread",
    ← Option.map_or]
  rcases ht : (column? header "t").or (column? header "time") with _ | t
  · rfl
  rcases hm : column? header "mid" with _ | m
  · rfl
  rcases hs : column? header "spread" with _ | s
  · rfl
  have hrows : (cellsAt records m).length = records.length := List.length_map _
  show List.mapM _ (records.zipIdx 1) = (List.range (cellsAt records m).length).mapM _
  rw [hrows]
  refine mapM_eq_of_forall₂ (List.forall₂_iff_get.mpr ⟨?_, fun i hi _ => ?_⟩)
  · rw [List.length_zipIdx, List.length_range]
  · rw [List.length_zipIdx] at hi
    have hrecord := hwidth records[i] (List.getElem_mem hi)
    rw [List.get_eq_getElem, List.get_eq_getElem, List.getElem_zipIdx, List.getElem_range,
      Nat.add_comm 1 i]
    dsimp only
    rw [if_pos hrecord]
    exact tickOfRecord_eq_tickByName hcells hi hrecord ht hm hs

end

end

theorem ticksByName_congr {cells cells' : String → Option (List String)}
    (h : ∀ name ∈ namesAsked, cells name = cells' name) :
    ticksByName cells = ticksByName cells' := by
  unfold namesAsked at h
  simp only [List.forall_mem_cons, List.not_mem_nil, false_imp_iff, implies_true, and_true] at h
  obtain ⟨ht, htime, hm, hs, hb, ha, hq, hv⟩ := h
  have hrow : tickByName cells = tickByName cells' := by
    funext i
    unfold tickByName
    rw [ht, htime, hm, hs, hb, ha, hq, hv]
  unfold ticksByName
  rw [ht, htime, hm, hs, hrow]

/-! ## Other layouts -/

section

variable {header header' : List String} {records records' : List (List String)}

theorem length_filter_le_one {β : Type} {R : β → β → Prop} {p : β → Bool} {l : List β}
    (hl : l.Pairwise R) (hp : ∀ a b, p a = true → p b = true → ¬ R a b) :
    (l.filter p).length ≤ 1 := by
  have hpair := hl.filter p
  have hall := fun a (ha : a ∈ l.filter p) => (List.mem_filter.mp ha).2
  generalize l.filter p = l' at hpair hall ⊢
  obtain _ | ⟨a, _ | ⟨b, l'⟩⟩ := l'
  · exact Nat.zero_le 1
  · exact Nat.le_refl 1
  · have hab := (List.pairwise_cons.mp hpair).1 b List.mem_cons_self
    exact absurd hab (hp a b (hall a List.mem_cons_self)
      (hall b (List.mem_cons_of_mem a List.mem_cons_self)))

/-- Where the names of a header differ, there is one column of a name at most. -/
theorem length_cellsNamed_le_one (hdistinct : header.Pairwise fun m n => sameName m n = false)
    (name : String) : (cellsNamed (columnsOf header records) name).length ≤ 1 := by
  have hlength : (cellsNamed (columnsOf header records) name).length =
      (header.filter (sameName name)).length := by
    unfold cellsNamed
    conv_rhs => rw [← @names_columnsOf header records]
    rw [List.filter_map, List.length_map, List.length_map]
    rfl
  rw [hlength]
  refine length_filter_le_one hdistinct fun m n hm hn hmn => ?_
  rw [sameName_comm] at hm
  rw [sameName_trans hm hn] at hmn
  cases hmn

theorem length_ticksOfTable {ts : List (Tick Float)} (h : ticksOfTable header records = .ok ts) :
    ts.length = records.length := by
  obtain ⟨cs, -, h⟩ := bind_ok_iff.mp h
  rw [← (mapM_ok_iff.mp h).length_eq, List.length_zipIdx]

/-- **Columns are found by their names alone.** Tables of the same data in other layouts have the
same ticks, one for each record, or the same fault, in the same cell of the same row. -/
theorem ticksOfCsv_rearranged {text text' : String}
    (htext : (Text.Delimited.records text).map (·.map trim) = header :: records)
    (htext' : (Text.Delimited.records text').map (·.map trim) = header' :: records')
    (hwidth : ∀ record ∈ records, record.length = header.length)
    (hwidth' : ∀ record ∈ records', record.length = header'.length)
    (hdistinct : header.Pairwise fun m n => sameName m n = false)
    (h : Rearranged (columnsOf header records) (columnsOf header' records')) :
    ticksOfCsv text = ticksOfCsv text' ∧
      ∀ ts, ticksOfCsv text = .ok ts → ts.length = records.length := by
  have htable : ticksOfCsv text = ticksOfTable header records := by
    unfold ticksOfCsv
    rw [htext]
  have htable' : ticksOfCsv text' = ticksOfTable header' records' := by
    unfold ticksOfCsv
    rw [htext']
  have hcells := cellsNamed_rearranged h fun name _ => length_cellsNamed_le_one hdistinct name
  refine ⟨?_, fun ts hts => length_ticksOfTable (htable.symm.trans hts)⟩
  rw [htable, htable', ticksOfTable_eq_ticksByName head?_cellsNamed hwidth,
    ticksOfTable_eq_ticksByName head?_cellsNamed hwidth']
  exact ticksByName_congr fun name hname => congrArg List.head? (hcells name hname)

end

/-- A table with a price that is no number. -/
def typoTable : String := "t,mid,spread\n0,100,0.2\n1,abc,0.2\n"

def typoRecords : List (List String) := [["0", "100", "0.2"], ["1", "abc", "0.2"]]

/-- The same data with a regime, in another order and in other cases. -/
def regimeTable : String := "SPREAD,regime,T,Mid\n0.2,calm,0,100\n0.2,wild,1,abc\n"

def regimeRecords : List (List String) :=
  [["0.2", "calm", "0", "100"], ["0.2", "wild", "1", "abc"]]

theorem ticksOfCsv_rearranged_typo :
    Rearranged (columnsOf ["t", "mid", "spread"] typoRecords)
      (columnsOf ["SPREAD", "regime", "T", "Mid"] regimeRecords) ∧
    ticksOfCsv typoTable = ticksOfCsv regimeTable := by
  have hturned : Rearranged (columnsOf ["t", "mid", "spread"] typoRecords)
      [⟨"spread", ["0.2", "0.2"]⟩, ⟨"t", ["0", "1"]⟩, ⟨"mid", ["100", "abc"]⟩] :=
    .permuted (@List.perm_append_comm _ [_, _] [_])
  have hrecased : Rearranged
      [⟨"spread", ["0.2", "0.2"]⟩, ⟨"t", ["0", "1"]⟩, ⟨"mid", ["100", "abc"]⟩]
      [⟨"SPREAD", ["0.2", "0.2"]⟩, ⟨"T", ["0", "1"]⟩, ⟨"Mid", ["100", "abc"]⟩] :=
    .recased (.cons ⟨by decide, rfl⟩ (.cons ⟨by decide, rfl⟩ (.cons ⟨by decide, rfl⟩ .nil)))
  have hregime : Rearranged
      [⟨"SPREAD", ["0.2", "0.2"]⟩, ⟨"T", ["0", "1"]⟩, ⟨"Mid", ["100", "abc"]⟩]
      (columnsOf ["SPREAD", "regime", "T", "Mid"] regimeRecords) :=
    .trans (@Rearranged.inserted ⟨"regime", ["calm", "wild"]⟩ _ (by decide)) (.permuted (.swap ..))
  have h := (hturned.trans hrecased).trans hregime
  have htext : (Text.Delimited.records typoTable).map (·.map trim) =
      ["t", "mid", "spread"] :: typoRecords := by
    decide +kernel
  have htext' : (Text.Delimited.records regimeTable).map (·.map trim) =
      ["SPREAD", "regime", "T", "Mid"] :: regimeRecords := by
    decide +kernel
  exact ⟨h, (ticksOfCsv_rearranged htext htext' (by decide) (by decide) (by decide) h).1⟩

end TickBacktest.Market
