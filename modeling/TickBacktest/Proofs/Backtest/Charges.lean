import Mathlib.Algebra.Ring.Nat
import TickBacktest.Proofs.Backtest.Ledger

/-! # What trading costs

Every unit in the ledger of a run is charged once. The charges are read off the positions, one for
each period (`charges`): the change of the position at its end, and in the first period also what
was traded at the first tick, before any period. The returns take them off, period by period
(`getElem?_strategyReturns`), and they add up to the units in the ledger, since both are sums over
the changes of the position (`Chained.sum_natAbs_size`, `sum_chargesFrom`). -/

namespace TickBacktest.Backtest

open Market

/-! ## Charges -/

/-- The units charged in the periods that end in the given positions, when `held` goes into the
first of them and `uncharged` units are still to be paid for. -/
def chargesFrom : ℕ → Position → List Position → List ℕ
  | _, _, [] => []
  | uncharged, held, next :: later =>
    (uncharged + (held.delta next).natAbs) :: chargesFrom 0 next later

/-- The units charged in each period of a run with the given positions. -/
def charges : List Position → List ℕ
  | [] => []
  | first :: later => chargesFrom first.units.natAbs first later

theorem length_chargesFrom (ps : List Position) :
    ∀ (k : ℕ) (held : Position), (chargesFrom k held ps).length = ps.length := by
  induction ps with
  | nil => intro k held; rfl
  | cons next later ih =>
    intro k held
    rw [chargesFrom, List.length_cons, List.length_cons, ih]

theorem length_charges {ps : List Position} (h : ps ≠ []) :
    (charges ps).length + 1 = ps.length := by
  obtain ⟨first, later, rfl⟩ := List.exists_cons_of_ne_nil h
  rw [charges, length_chargesFrom, List.length_cons]

/-- The charge of a period is the change of the position, with the open units in the first one. -/
theorem getElem?_chargesFrom (ps : List Position) : ∀ (k : ℕ) (held : Position) (i : ℕ)
    {before next : Position}, (held :: ps)[i]? = some before → ps[i]? = some next →
      (chargesFrom k held ps)[i]? =
        some ((if i = 0 then k else 0) + (before.delta next).natAbs) := by
  induction ps with
  | nil => intro k held i before next _ h; simp at h
  | cons p ps ih =>
    intro k held i before next hb hn
    rcases i with _ | i
    · cases hb
      cases hn
      rfl
    · rw [List.getElem?_cons_succ] at hb hn
      rw [chargesFrom, List.getElem?_cons_succ, ih 0 p i hb hn, if_neg (Nat.succ_ne_zero i),
        ite_self]

/-- Open units are charged once, in the first period. -/
theorem sum_chargesFrom {ps : List Position} (h : ps ≠ []) (k : ℕ) (held : Position) :
    (chargesFrom k held ps).sum = k + (chargesFrom 0 held ps).sum := by
  obtain ⟨next, later, rfl⟩ := List.exists_cons_of_ne_nil h
  rw [chargesFrom, chargesFrom, List.sum_cons, List.sum_cons]
  omega

theorem natAbs_delta_reversal {held next : Position} (hheld : held ≠ .flat)
    (hnext : next.units = -held.units) : (held.delta next).natAbs = 2 := by
  cases held
  case flat => exact absurd rfl hheld
  all_goals cases next <;> first | rfl | cases hnext

section

variable {α : Type}

/-- The ledger of a chain has as many units as the changes of its positions. -/
theorem Chained.sum_natAbs_size {held : Position} {ds : List (Decision α)}
    (h : Chained held ds) : ((ds.filterMap (·.trade?)).map (·.size.natAbs)).sum =
      (chargesFrom 0 held (ds.map (·.after))).sum := by
  induction ds generalizing held with
  | nil => rfl
  | cons d ds ih =>
    obtain ⟨hd, hds⟩ := h
    rw [List.map_cons, chargesFrom, List.sum_cons, ← ih hds, ← hd, Nat.zero_add]
    by_cases hne : d.before = d.after
    · have h0 : (d.before.delta d.after).natAbs = 0 := by
        rw [hne]
        unfold Position.delta
        omega
      rw [List.filterMap_cons_none (Decision.trade?_eq_none hne), h0, Nat.zero_add]
    · rw [List.filterMap_cons_some (Decision.trade?_ne hne), List.map_cons, List.sum_cons]

/-- The charges of a chain from the start add up to the units in its ledger. -/
theorem Chained.sum_charges {ds : List (Decision α)} (h : Chained .flat ds)
    (hlen : 2 ≤ ds.length) : (charges (ds.map (·.after))).sum =
      ((ds.filterMap (·.trade?)).map (·.size.natAbs)).sum := by
  rw [h.sum_natAbs_size]
  rcases ds with _ | ⟨d, ds⟩
  · simp at hlen
  · have hne : ds.map (·.after) ≠ [] := by
      refine List.ne_nil_of_length_pos ?_
      rw [List.length_map]
      exact Nat.le_of_succ_le_succ hlen
    have hd : (Position.flat.delta d.after).natAbs = d.after.units.natAbs := by
      cases d.after <;> rfl
    rw [List.map_cons, charges, chargesFrom, List.sum_cons, sum_chargesFrom hne, hd, Nat.zero_add]

end

/-! ## Returns -/

variable {α σ : Type} [Scalar α] (cost : α)

/-- A period returns the price change on what went into it, less its charge. -/
theorem getElem?_returnsFrom (prices : List α) : ∀ (k : ℕ) (held : Position) (ps : List Position)
    (i : ℕ) {before : Position} {price : α} {units : ℕ}, (held :: ps)[i]? = some before →
      prices[i]? = some price → (chargesFrom k held ps)[i]? = some units →
      (returnsFrom cost k prices held ps)[i]? =
        some (before.exposure * price - (units : α) * cost) := by
  induction prices with
  | nil => intro k held ps i before price units _ h; simp at h
  | cons p prices ih =>
    intro k held ps i before price units hb hp hc
    rcases ps with _ | ⟨next, later⟩
    · simp [chargesFrom] at hc
    · rw [chargesFrom] at hc
      rw [returnsFrom]
      rcases i with _ | i
      · cases hb
        cases hp
        cases hc
        rfl
      · rw [List.getElem?_cons_succ] at hb hp hc ⊢
        exact ih 0 next later i hb hp hc

theorem getElem?_strategyReturns (mids : List α) (ps : List Position) (i : ℕ) {before : Position}
    {price : α} {units : ℕ} (hb : ps[i]? = some before)
    (hp : (priceReturns mids)[i + 1]? = some price) (hc : (charges ps)[i]? = some units) :
    (strategyReturns mids ps cost)[i + 1]? =
      some (before.exposure * price - (units : α) * cost) := by
  unfold strategyReturns
  split
  · next h0 => simp [h0] at hp
  · next h0 => simp at hb
  · next h0 =>
    rw [h0, List.getElem?_cons_succ] at hp
    rw [charges] at hc
    rw [List.getElem?_cons_succ]
    exact getElem?_returnsFrom cost _ _ _ _ i hb hp hc

theorem head?_strategyReturns {mids : List α} (h : mids ≠ []) (ps : List Position) :
    (strategyReturns mids ps cost)[0]? = some 0 := by
  have hlen := length_priceReturns mids
  unfold strategyReturns
  split
  · next h0 =>
    rw [h0, List.length_nil] at hlen
    exact absurd (List.length_eq_zero_iff.mp hlen.symm) h
  · rfl
  · rfl

/-! ## A run -/

/-- The returns of a result are charged with the given units, period by period, and with no unit
more or less than its ledger has. -/
structure Charged (r : Result α) (units : List ℕ) : Prop where
  first : r.returns[0]? = some 0
  period : ∀ i : ℕ, i < units.length → ∃ held price c, r.positions[i]? = some held ∧
    (priceReturns r.mids)[i + 1]? = some price ∧ units[i]? = some c ∧
    r.returns[i + 1]? = some (held.exposure * price - (c : α) * cost)
  total : units.sum = (r.trades.map (·.size.natAbs)).sum
  change : ∀ (i : ℕ) (held next : Position), r.positions[i]? = some held →
    r.positions[i + 1]? = some next →
    units[i]? = some ((if i = 0 then held.units.natAbs else 0) + (held.delta next).natAbs)
  reversal : ∀ (i : ℕ) (held next : Position), r.positions[i]? = some held →
    r.positions[i + 1]? = some next → held ≠ .flat → next.units = -held.units →
    units[i]? = some ((if i = 0 then 1 else 0) + 2)

theorem getElem?_charges {ps : List Position} {i : ℕ} {held next : Position}
    (hb : ps[i]? = some held) (hn : ps[i + 1]? = some next) : (charges ps)[i]? =
      some ((if i = 0 then held.units.natAbs else 0) + (held.delta next).natAbs) := by
  rcases ps with _ | ⟨first, later⟩
  · simp at hb
  · rw [List.getElem?_cons_succ] at hn
    rw [charges, getElem?_chargesFrom later _ first i hb hn]
    rcases i with _ | i
    · cases hb
      rfl
    · rfl

/-- The result of a chain of at least two decisions is charged with the changes of its
positions. -/
theorem charged_ofDecisions {ds : List (Decision α)} (hds : Chained .flat ds)
    (hlen : 2 ≤ ds.length) :
    Charged cost (Result.ofDecisions cost ds) (charges (ds.map (·.after))) := by
  have hlong : ∀ {β : Type} (f : Decision α → β), ds.map f ≠ [] := by
    intro β f
    refine List.ne_nil_of_length_pos ?_
    rw [List.length_map]
    omega
  have hunits : (charges (ds.map (·.after))).length + 1 = ds.length := by
    rw [length_charges (hlong _), List.length_map]
  refine ⟨?_, fun i hi => ?_, hds.sum_charges hlen, fun i held next hb hn => ?_,
    fun i held next hb hn hheld hnext => ?_⟩
  · exact head?_strategyReturns cost (hlong _) _
  · have hpos : i < (ds.map (·.after)).length := by rw [List.length_map]; omega
    have hprice : i + 1 < (priceReturns (ds.map (·.tick.mid))).length := by
      rw [length_priceReturns, List.length_map]
      omega
    refine ⟨_, _, _, List.getElem?_eq_getElem hpos, List.getElem?_eq_getElem hprice,
      List.getElem?_eq_getElem hi, ?_⟩
    exact getElem?_strategyReturns cost _ _ i (List.getElem?_eq_getElem hpos)
      (List.getElem?_eq_getElem hprice) (List.getElem?_eq_getElem hi)
  · exact getElem?_charges hb hn
  · refine (getElem?_charges hb hn).trans ?_
    rw [natAbs_delta_reversal hheld hnext]
    cases held
    case flat => exact absurd rfl hheld
    all_goals rfl

/-- **Every unit traded is charged exactly once**: each period after the first tick has its charge,
and the charges of a run add up to the units in its ledger. -/
theorem units_charged_once {policy : Policy α σ} {p final : σ} {config : Config α}
    {ticks : List (Tick α)} {result : Result α}
    (h : run policy p config ticks = .ok (result, final)) :
    ∃ units : List ℕ, units.length + 1 = (validTicks ticks).length ∧
      Charged config.transactionCost result units := by
  obtain ⟨henough, -, rfl, -⟩ := result_of_run h
  have hchain := State.chained_decisionsAt policy (validTicks ticks) (State.start config p)
  have hlen := State.length_decisionsAt policy (validTicks ticks) (State.start config p)
  refine ⟨_, ?_, charged_ofDecisions config.transactionCost hchain (by omega)⟩
  rw [length_charges, List.length_map, hlen]
  refine List.ne_nil_of_length_pos ?_
  rw [List.length_map]
  omega

/-- A run that buys at its first tick and then turns from long to short is charged three units in
its first period. -/
theorem units_charged_of_reversal :
    ∃ (result : Result Float) (final : List (Option Int)) (units : List ℕ),
      run scripted [some 1, some (-1), none] ⟨0.001, 1⟩ quotesWithGap = .ok (result, final) ∧
        result.positions = [.long, .short, .short] ∧ units = [3, 0] ∧
        Charged 0.001 result units := by
  have h := run_of_enough scripted [some 1, some (-1), none] ⟨0.001, 1⟩ enough_quotesWithGap
    (by decide)
  obtain ⟨units, hlen, hc⟩ := units_charged_once h
  have hp : (Result.ofDecisions (0.001 : Float)
      ((State.start ⟨0.001, 1⟩ [some 1, some (-1), none]).decisionsAt scripted
        (validTicks quotesWithGap))).positions = [.long, .short, .short] := by decide +kernel
  have h0 := hc.change 0 .long .short (by rw [hp]; rfl) (by rw [hp]; rfl)
  have h1 := hc.change 1 .short .short (by rw [hp]; rfl) (by rw [hp]; rfl)
  have hn : (validTicks quotesWithGap).length = 3 := by decide +kernel
  refine ⟨_, _, units, h, hp, ?_, hc⟩
  rcases units with _ | ⟨a, _ | ⟨b, _ | ⟨c, rest⟩⟩⟩
  · simp at h0
  · simp at h1
  · cases h0
    cases h1
    rfl
  · simp only [List.length_cons] at hlen
    omega

end TickBacktest.Backtest
