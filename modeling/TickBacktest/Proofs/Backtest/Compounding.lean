import Mathlib.Algebra.BigOperators.Group.List.Basic
import Mathlib.Algebra.Order.Ring.Rat
import Mathlib.Tactic.Linarith
import TickBacktest.Proofs.Backtest.Charges
import TickBacktest.Proofs.Outcome
import TickBacktest.Scalar.Rational

/-! # What costs do to the growth

Over exact numbers a run grows by the product of its factors, one plus the return of each period
(`totalReturn_of`), and charges make returns smaller, period by period (`strategyReturns_le`).

A product of factors that are not negative is made smaller by that, unless it is zero already
(`growth_lt_iff`). So costs lower the total return of a run in which no period takes more than
everything, exactly if the run at no cost has not lost everything (`costs_lower_total_return`).
Below that, costs may raise it: a short position that has lost more than everything leaves a debt,
and a debt grows by the same factors (`costs_raise_total_return`). -/

namespace TickBacktest.Backtest

open Market

/-! ## Growth as a product -/

/-- The growth of one unit over all the returns. -/
def growth (returns : List ℚ) : ℚ := (returns.map (1 + ·)).prod

@[simp] theorem growth_nil : growth [] = 1 := rfl

theorem growth_cons (r : ℚ) (rs : List ℚ) : growth (r :: rs) = (1 + r) * growth rs := by
  unfold growth
  rw [List.map_cons, List.prod_cons]

/-- The last value of a growth curve is the product of the factors. -/
theorem getLast?_growthFrom (rs : List ℚ) : ∀ g : ℚ,
    (g :: growthFrom g rs).getLast? = some (g * growth rs) := by
  induction rs with
  | nil => intro g; exact congrArg some (mul_one g).symm
  | cons r rs ih =>
    intro g
    have hcons : growthFrom g (r :: rs) = (g * (1 + r)) :: growthFrom (g * (1 + r)) rs := rfl
    rw [hcons, List.getLast?_cons_cons, ih, growth_cons, mul_assoc]

/-- **The total return is the growth over all periods**, less the unit that was put in. -/
theorem totalReturn_of (rs : List ℚ) (ps : List Position) (n : ℕ) :
    (Metrics.of rs ps n).totalReturn = (growth rs - 1) * 100 := by
  rcases rs with _ | ⟨r, rs⟩
  · have hzero : (Metrics.of ([] : List ℚ) ps n).totalReturn = (0 : ℚ) * 100 := rfl
    rw [hzero, growth_nil, sub_self]
  · have hlast : (growthCurve (r :: rs)).getLast? = some (growth (r :: rs)) := by
      have hcons : growthCurve (r :: rs) = (1 * (1 + r)) :: growthFrom (1 * (1 + r)) rs := rfl
      rw [hcons, getLast?_growthFrom, one_mul, growth_cons]
    unfold Metrics.of
    dsimp only
    rw [hlast]

/-! ## Smaller factors -/

section

variable {rs zs : List ℚ}

theorem growth_nonneg (h : ∀ r ∈ rs, -1 ≤ r) : 0 ≤ growth rs := by
  induction rs with
  | nil => exact zero_le_one
  | cons r rs ih =>
    obtain ⟨hr, hrs⟩ := List.forall_mem_cons.mp h
    rw [growth_cons]
    exact mul_nonneg (by linarith) (ih hrs)

theorem growth_le (h : List.Forall₂ (· ≤ ·) rs zs) (hrs : ∀ r ∈ rs, -1 ≤ r) :
    growth rs ≤ growth zs := by
  induction h with
  | nil => exact le_rfl
  | cons hrz _ ih =>
    obtain ⟨hr, hrs⟩ := List.forall_mem_cons.mp hrs
    rw [growth_cons, growth_cons]
    exact mul_le_mul (by linarith) (ih hrs) (growth_nonneg hrs) (by linarith)

/-- Where something is left, smaller returns leave less. -/
theorem growth_lt (h : List.Forall₂ (· ≤ ·) rs zs) (hrs : ∀ r ∈ rs, -1 ≤ r) (hne : rs ≠ zs)
    (hpos : 0 < growth zs) : growth rs < growth zs := by
  induction h with
  | nil => exact absurd rfl hne
  | @cons r z rs zs hrz htail ih =>
    obtain ⟨hr, hrs⟩ := List.forall_mem_cons.mp hrs
    rw [growth_cons] at hpos
    have hrest : 0 ≤ growth zs := (growth_nonneg hrs).trans (growth_le htail hrs)
    have hfactor : 0 < 1 + z := pos_of_mul_pos_left hpos hrest
    have hrest : 0 < growth zs := pos_of_mul_pos_right hpos hfactor.le
    rw [growth_cons, growth_cons]
    by_cases heq : r = z
    · -- the first factors are equal, so some later ones differ
      subst heq
      have hlt := ih hrs (fun h => hne (congrArg _ h)) hrest
      exact mul_lt_mul_of_pos_left hlt hfactor
    · have hlt : r < z := lt_of_le_of_ne hrz heq
      calc (1 + r) * growth rs ≤ (1 + r) * growth zs :=
            mul_le_mul_of_nonneg_left (growth_le htail hrs) (by linarith)
        _ < (1 + z) * growth zs := mul_lt_mul_of_pos_right (by linarith) hrest

/-- **Smaller returns that never take more than everything leave less, exactly if there is
something to lose.** -/
theorem growth_lt_iff (h : List.Forall₂ (· ≤ ·) rs zs) (hrs : ∀ r ∈ rs, -1 ≤ r) (hne : rs ≠ zs) :
    growth rs < growth zs ↔ 0 < growth zs :=
  ⟨(growth_nonneg hrs).trans_lt, growth_lt h hrs hne⟩

end

/-! ## Returns with and without charges -/

section

variable {cost : ℚ}

theorem returnsFrom_le (hcost : 0 ≤ cost) (prices : List ℚ) :
    ∀ (k : ℕ) (held : Position) (ps : List Position), List.Forall₂ (· ≤ ·)
      (returnsFrom cost k prices held ps) (returnsFrom 0 k prices held ps) := by
  induction prices with
  | nil => intro k held ps; exact .nil
  | cons p prices ih =>
    intro k held ps
    rcases ps with _ | ⟨next, later⟩
    · exact .cons le_rfl (ih 0 held [])
    · have hcharge : ∀ (x : ℚ) (n : ℕ), x - n * cost ≤ x - n * 0 := by
        intro x n
        have hn : 0 ≤ (n : ℚ) * cost := mul_nonneg n.cast_nonneg hcost
        linarith
      exact .cons (hcharge _ _) (ih 0 next later)

/-- Charges are not seen only where there are none. -/
theorem sum_chargesFrom_eq_zero (hcost : 0 < cost) (prices : List ℚ) :
    ∀ (k : ℕ) (held : Position) (ps : List Position), prices.length = ps.length →
      returnsFrom cost k prices held ps = returnsFrom 0 k prices held ps →
      (chargesFrom k held ps).sum = 0 := by
  induction prices with
  | nil =>
    intro k held ps hlen _
    rw [List.length_eq_zero_iff.mp hlen.symm]
    rfl
  | cons p prices ih =>
    intro k held ps hlen heq
    rcases ps with _ | ⟨next, later⟩
    · cases hlen
    · obtain ⟨hfirst, hrest⟩ := List.cons.inj heq
      have huncharged : ∀ (x : ℚ) (n : ℕ), x - n * cost = x - n * 0 → n = 0 := by
        intro x n h
        have hn : (n : ℚ) * cost = 0 := by linarith
        exact_mod_cast (mul_eq_zero.mp hn).resolve_right hcost.ne'
      rw [chargesFrom, List.sum_cons, huncharged _ _ hfirst,
        ih 0 next later (Nat.succ.inj hlen) hrest]

theorem strategyReturns_le (hcost : 0 ≤ cost) (mids : List ℚ) (ps : List Position) :
    List.Forall₂ (· ≤ ·) (strategyReturns mids ps cost) (strategyReturns mids ps 0) := by
  unfold strategyReturns
  split
  · exact .nil
  · exact .cons le_rfl (returnsFrom_le hcost _ _ _ _)
  · exact .cons le_rfl (returnsFrom_le hcost _ _ _ _)

/-- **What is charged lowers some return.** -/
theorem strategyReturns_ne (hcost : 0 < cost) {mids : List ℚ} {ps : List Position}
    (hlen : mids.length = ps.length) (hcharges : 0 < (charges ps).sum) :
    strategyReturns mids ps cost ≠ strategyReturns mids ps 0 := by
  intro heq
  have hl := length_priceReturns mids
  rcases ps with _ | ⟨first, later⟩
  · exact absurd hcharges (Nat.lt_irrefl 0)
  · unfold strategyReturns at heq
    rcases hprices : priceReturns mids with _ | ⟨p, prices⟩
    · rw [hprices, hlen] at hl
      cases hl
    · rw [hprices] at heq hl
      rw [hlen] at hl
      have hzero := sum_chargesFrom_eq_zero hcost prices _ first later (Nat.succ.inj hl)
        (List.cons.inj heq).2
      rw [charges, hzero] at hcharges
      exact absurd hcharges (Nat.lt_irrefl 0)

end

/-! ## Runs with and without costs -/

/-- A run at no cost, of any policy, over the same ticks and with the same positions. -/
def FreeOfCost (ticks : List (Tick ℚ)) (positions : List Position) (z : Result ℚ) : Prop :=
  ∃ (τ : Type) (policy : Policy ℚ τ) (p final : τ) (historyLength : ℕ),
    run policy p ⟨0, historyLength⟩ ticks = .ok (z, final) ∧ z.positions = positions

/-- An entry of the ledger is at least one unit, so there is something to charge. -/
theorem sum_natAbs_size_pos {α : Type} {ds : List (Decision α)}
    (h : ds.filterMap (·.trade?) ≠ []) :
    0 < ((ds.filterMap (·.trade?)).map (·.size.natAbs)).sum := by
  obtain ⟨trade, ht⟩ := List.exists_mem_of_ne_nil _ h
  obtain ⟨d, -, hd⟩ := List.mem_filterMap.mp ht
  obtain ⟨-, -, hne, hsize⟩ := Decision.trade?_spec hd
  have hunits : trade.before.units ≠ trade.after.units := by
    intro heq
    apply hne
    rw [← Position.ofTarget_units trade.before, heq, Position.ofTarget_units]
  exact List.sum_pos_iff_exists_pos_nat.mpr ⟨_, List.mem_map_of_mem ht, by omega⟩

section

variable {σ : Type} {policy : Policy ℚ σ} {p final : σ} {config : Config ℚ} {ticks : List (Tick ℚ)}
  {r : Result ℚ}

/-- **The returns of a run are those of its positions over the mids of the valid ticks.** -/
theorem returns_of_run (h : run policy p config ticks = .ok (r, final)) :
    r.returns =
      strategyReturns ((validTicks ticks).map (·.mid)) r.positions config.transactionCost := by
  obtain ⟨-, -, rfl, -⟩ := result_of_run h
  set ds := (State.start config p).decisionsAt policy (validTicks ticks) with hds
  have hmids : (validTicks ticks).map (·.mid) = ds.map (·.tick.mid) := by
    rw [← State.ticks_decisionsAt policy (validTicks ticks) (State.start config p), List.map_map]
    rfl
  rw [hmids]
  rfl

/-- The total return of a run is the growth over its returns. -/
theorem totalReturn_of_run (h : run policy p config ticks = .ok (r, final)) :
    r.metrics.totalReturn = (growth r.returns - 1) * 100 := by
  obtain ⟨-, -, rfl, -⟩ := result_of_run h
  exact totalReturn_of _ _ _

theorem length_positions_of_run (h : run policy p config ticks = .ok (r, final)) :
    r.positions.length = (validTicks ticks).length := by
  obtain ⟨-, -, rfl, -⟩ := result_of_run h
  show (List.map _ _).length = _
  rw [List.length_map, State.length_decisionsAt]

/-- A run that trades is charged. -/
theorem charges_of_run (h : run policy p config ticks = .ok (r, final)) (htrades : r.trades ≠ []) :
    0 < (charges r.positions).sum := by
  obtain ⟨henough, -, rfl, -⟩ := result_of_run h
  set ds := (State.start config p).decisionsAt policy (validTicks ticks) with hds
  have hchain : Chained .flat ds := State.chained_decisionsAt policy _ (State.start config p)
  have hlen : ds.length = (validTicks ticks).length := State.length_decisionsAt policy _ _
  have hsum : (charges (ds.map (·.after))).sum =
      ((ds.filterMap (·.trade?)).map (·.size.natAbs)).sum := hchain.sum_charges (hlen ▸ henough)
  show 0 < (charges (ds.map (·.after))).sum
  rw [hsum]
  exact sum_natAbs_size_pos htrades

end

/-- **Costs cost, as long as there is something to lose.** If a run trades at all and no period of
it returns less than minus one, then its total return lies below that of a run at no cost with the
same positions exactly if that run has not lost everything. Such a run is the one of the same
policy. -/
theorem costs_lower_total_return {σ : Type} {policy : Policy ℚ σ} {p final : σ} {config : Config ℚ}
    {ticks : List (Tick ℚ)} {r : Result ℚ} (h : run policy p config ticks = .ok (r, final))
    (hcost : 0 < config.transactionCost) (htrades : r.trades ≠ [])
    (hreturns : ∀ x ∈ r.returns, -1 ≤ x) :
    (∃ z, run policy p { config with transactionCost := 0 } ticks = .ok (z, final) ∧
      z.positions = r.positions) ∧
    ∀ z, FreeOfCost ticks r.positions z →
      (r.metrics.totalReturn < z.metrics.totalReturn ↔ -100 < z.metrics.totalReturn) := by
  constructor
  · obtain ⟨henough, hfits, rfl, rfl⟩ := result_of_run h
    exact ⟨_, run_of_enough policy p _ henough hfits, rfl⟩
  rintro z ⟨τ, policy', p', final', n, hz, hpositions⟩
  have hreturns' := returns_of_run h
  have hfree := returns_of_run hz
  rw [hpositions] at hfree
  have hlen : ((validTicks ticks).map (·.mid)).length = r.positions.length := by
    rw [List.length_map, length_positions_of_run h]
  have hlower : growth r.returns < growth z.returns ↔ 0 < growth z.returns := by
    refine growth_lt_iff ?_ hreturns ?_
    · rw [hreturns', hfree]
      exact strategyReturns_le hcost.le _ _
    · rw [hreturns', hfree]
      exact strategyReturns_ne hcost hlen (charges_of_run h htrades)
  rw [totalReturn_of_run h, totalReturn_of_run hz]
  constructor
  · intro hlt
    have hpos := hlower.mp (by linarith)
    linarith
  · intro hpos
    have hlt := hlower.mpr (by linarith)
    linarith

/-- A run that buys, and sells after a fall of ten percent, lies further below at a cost of a tenth
of each unit. -/
theorem costs_lower_return_of_scripted :
    ∃ a, run scripted [some 1, none, some 0] ⟨1 / 10, 1⟩ (ticksOfMids ([100, 110, 99] : List ℚ) 1) =
        .ok a ∧
      ∃ b, run scripted [some 1, none, some 0] ⟨0, 1⟩ (ticksOfMids ([100, 110, 99] : List ℚ) 1) =
          .ok b ∧
        b.1.positions = a.1.positions ∧ a.1.trades.length = 2 ∧ (∀ x ∈ a.1.returns, -1 ≤ x) ∧
        a.1.metrics.totalReturn < b.1.metrics.totalReturn := by
  obtain ⟨⟨r, final⟩, hr, htrades, hreturns⟩ :
      ∃ a, run scripted [some 1, none, some 0] ⟨1 / 10, 1⟩
          (ticksOfMids ([100, 110, 99] : List ℚ) 1) = .ok a ∧
        a.1.trades.length = 2 ∧ ∀ x ∈ a.1.returns, -1 ≤ x := by decide +kernel
  have htraded : r.trades ≠ [] := List.ne_nil_of_length_pos (htrades ▸ Nat.two_pos)
  obtain ⟨⟨z, hz, hpositions⟩, hlower⟩ :=
    costs_lower_total_return hr (by decide +kernel) htraded hreturns
  have hleft : -100 < z.metrics.totalReturn := by
    obtain ⟨b, hb, hleft⟩ : ∃ b, run scripted [some 1, none, some 0] ⟨0, 1⟩
        (ticksOfMids ([100, 110, 99] : List ℚ) 1) = .ok b ∧
        -100 < b.1.metrics.totalReturn := by decide +kernel
    cases hz.symm.trans hb
    exact hleft
  exact ⟨_, hr, _, hz, hpositions, htrades, hreturns,
    (hlower z ⟨_, _, _, _, _, hz, hpositions⟩).mpr hleft⟩

/-- **Costs may raise the total return.** The price of a short position triples, so the position
loses twice what there is. At no cost that leaves a debt of one unit; where the trade has cost half
of the unit before, the debt is half of it. The mids are positive, the cost lies between zero and
one, and doubles compute the same numbers. -/
theorem costs_raise_total_return :
    (∃ a, run scripted [some (-1), none, none] ⟨1 / 2, 1⟩
        (ticksOfMids ([100, 100, 300] : List ℚ) 1) = .ok a ∧
      ∃ b, run scripted [some (-1), none, none] ⟨0, 1⟩
          (ticksOfMids ([100, 100, 300] : List ℚ) 1) = .ok b ∧
        a.1.positions = b.1.positions ∧ a.1.trades.length = 1 ∧
        a.1.metrics.totalReturn = -150 ∧ b.1.metrics.totalReturn = -200) ∧
    ∃ a, run scripted [some (-1), none, none] ⟨0.5, 1⟩
        (ticksOfMids ([100, 100, 300] : List Float) 1) = .ok a ∧
      ∃ b, run scripted [some (-1), none, none] ⟨0, 1⟩
          (ticksOfMids ([100, 100, 300] : List Float) 1) = .ok b ∧
        a.1.positions = b.1.positions ∧ a.1.trades.length = 1 ∧
        b.1.metrics.totalReturn < a.1.metrics.totalReturn := by
  decide +kernel

end TickBacktest.Backtest
