import Mathlib.Algebra.Order.Ring.Abs
import Mathlib.Order.Bounds.Basic
import Mathlib.Tactic.Linarith
import TickBacktest.Proofs.Backtest.Compounding

/-! # Drawdowns

Over exact numbers. The scan for drawdowns keeps one number, the highest value of the curve so far,
and compares each value with it; the maximum drawdown is the lowest of what it finds. That is the
worst fall between any two periods, an earlier and a later one (`maxDrawdown_is_worst_fall`):

* the peak kept is the greatest value reached (`drawdownsFrom_spec`), so each drawdown is a fall
  (`drawdowns_spec`), and no fall that ends in the same period is lower (`fall_anti`);
* the lowest of them is a fall itself, for the zero it is compared with at first is the fall from a
  period to the same one (`isLeast_falls`).
-/

namespace TickBacktest.Backtest

/-! ## Falls -/

/-- How far a value lies above or below an earlier one, as a part of that. -/
def fall (earlier later : ℚ) : ℚ := (later - earlier) / earlier

/-- The growth of one unit at the end of a period. -/
def growthAt (returns : List ℚ) (period : ℕ) : ℚ := growth (returns.take (period + 1))

/-- The falls from any period to the same or a later one. -/
def falls (returns : List ℚ) : Set ℚ :=
  {x | ∃ i j, i ≤ j ∧ j < returns.length ∧ x = fall (growthAt returns i) (growthAt returns j)}

section

variable {a b g : ℚ}

@[simp] theorem fall_self (a : ℚ) : fall a a = 0 := by
  unfold fall
  rw [sub_self, zero_div]

theorem fall_eq (ha : 0 < a) : fall a g = g / a - 1 := by
  unfold fall
  rw [sub_div, div_self ha.ne']

/-- The higher the value a fall starts from, the lower it is. -/
theorem fall_anti (ha : 0 < a) (hab : a ≤ b) (hg : 0 < g) : fall b g ≤ fall a g := by
  have hdiv : g / b ≤ g / a := div_le_div_of_nonneg_left hg.le ha hab
  rw [fall_eq ha, fall_eq (ha.trans_le hab)]
  linarith

theorem neg_one_lt_fall (ha : 0 < a) (hg : 0 < g) : -1 < fall a g := by
  have hdiv : 0 < g / a := div_pos hg ha
  rw [fall_eq ha]
  linarith

theorem fall_nonneg_iff (ha : 0 < a) : 0 ≤ fall a g ↔ a ≤ g := by
  rw [fall_eq ha, sub_nonneg, one_le_div₀ ha]

end

/-! ## The growth curve -/

section

variable {rs : List ℚ}

theorem getElem?_growthFrom (rs : List ℚ) : ∀ (g : ℚ) (j : ℕ), j < rs.length →
    (growthFrom g rs)[j]? = some (g * growth (rs.take (j + 1))) := by
  induction rs with
  | nil => intro g j hj; exact absurd hj (Nat.not_lt_zero j)
  | cons r rs ih =>
    intro g j hj
    have hcons : growthFrom g (r :: rs) = (g * (1 + r)) :: growthFrom (g * (1 + r)) rs := rfl
    rcases j with _ | j
    · rw [hcons, List.take_succ_cons, List.take_zero, growth_cons, growth_nil, mul_one]
      rfl
    · have hj' : j < rs.length := Nat.lt_of_succ_lt_succ hj
      rw [hcons, List.getElem?_cons_succ, ih _ j hj', List.take_succ_cons, growth_cons, mul_assoc]

/-- The values of the growth curve. -/
theorem getElem?_growthCurve {j : ℕ} (hj : j < rs.length) :
    (growthCurve rs)[j]? = some (growthAt rs j) := by
  have h := getElem?_growthFrom rs 1 j hj
  rw [one_mul] at h
  exact h

theorem length_growthCurve (rs : List ℚ) : (growthCurve rs).length = rs.length :=
  length_growthFrom rs 1

theorem growth_pos (h : ∀ r ∈ rs, -1 < r) : 0 < growth rs := by
  induction rs with
  | nil => exact zero_lt_one
  | cons r rs ih =>
    obtain ⟨hr, hrs⟩ := List.forall_mem_cons.mp h
    rw [growth_cons]
    exact mul_pos (by linarith) (ih hrs)

theorem growthAt_pos (h : ∀ r ∈ rs, -1 < r) (j : ℕ) : 0 < growthAt rs j :=
  growth_pos fun r hr => h r (List.mem_of_mem_take hr)

theorem growth_append (rs zs : List ℚ) : growth (rs ++ zs) = growth rs * growth zs := by
  unfold growth
  rw [List.map_append, List.prod_append]

/-- In each period the curve grows by the return of the period. -/
theorem growthAt_succ {j : ℕ} (hj : j + 1 < rs.length) :
    growthAt rs (j + 1) = growthAt rs j * (1 + rs[j + 1]) := by
  unfold growthAt
  rw [List.take_succ_eq_append_getElem hj, growth_append, growth_cons, growth_nil, mul_one]

/-- A curve without losses does not fall. -/
theorem growthAt_mono (h : ∀ r ∈ rs, 0 ≤ r) {i j : ℕ} (hij : i ≤ j) (hj : j < rs.length) :
    growthAt rs i ≤ growthAt rs j := by
  induction j, hij using Nat.le_induction with
  | base => exact le_rfl
  | succ j hij ih =>
    have hlater : 0 ≤ rs[j + 1] := h _ (List.getElem_mem hj)
    have hpos : 0 < growthAt rs j := growthAt_pos (fun r hr => by linarith [h r hr]) j
    calc growthAt rs i ≤ growthAt rs j := ih (Nat.lt_of_succ_lt hj)
      _ ≤ growthAt rs j * (1 + rs[j + 1]) := le_mul_of_one_le_right hpos.le (by linarith)
      _ = growthAt rs (j + 1) := (growthAt_succ hj).symm

end

/-! ## The scan -/

/-- The values of a curve up to a period. -/
def reached (curve : List ℚ) (period : ℕ) : Set ℚ := {x | ∃ i ≤ period, curve[i]? = some x}

theorem reached_zero (g : ℚ) (gs : List ℚ) : reached (g :: gs) 0 = {g} := by
  ext x
  constructor
  · rintro ⟨i, hi, hx⟩
    obtain rfl := Nat.le_zero.mp hi
    exact (Option.some.inj hx).symm
  · rintro rfl
    exact ⟨0, le_rfl, rfl⟩

theorem reached_succ (g : ℚ) (gs : List ℚ) (j : ℕ) :
    reached (g :: gs) (j + 1) = {g} ∪ reached gs j := by
  ext x
  constructor
  · rintro ⟨i, hi, hx⟩
    rcases i with _ | i
    · exact .inl (Option.some.inj hx).symm
    · exact .inr ⟨i, Nat.le_of_succ_le_succ hi, hx⟩
  · rintro (rfl | ⟨i, hi, hx⟩)
    · exact ⟨0, Nat.zero_le _, rfl⟩
    · exact ⟨i + 1, Nat.succ_le_succ hi, hx⟩

section

variable {past : Set ℚ} {p : ℚ}

/-- One step of the scan: the peak is the greatest of what was reached and the new value. -/
theorem bound_peak (p g : ℚ) :
    Scalar.bound (fun x y => decide (y < x)) (some p) g = some (max p g) := by
  unfold Scalar.bound
  by_cases h : p < g
  · simp [h, max_eq_right h.le]
  · simp [h, max_eq_left (not_lt.mp h)]

theorem isGreatest_max {g : ℚ} (hp : IsGreatest past p) : IsGreatest (past ∪ {g}) (max p g) :=
  hp.union isGreatest_singleton

/-- **The scan keeps the greatest value reached**, and tells how far each value lies below it. -/
theorem drawdownsFrom_spec (gs : List ℚ) : ∀ {past : Set ℚ} {p : ℚ}, IsGreatest past p → 0 < p →
    ∀ (j : ℕ) (d : ℚ), (drawdownsFrom (some p) gs)[j]? = some d →
      ∃ q g, IsGreatest (past ∪ reached gs j) q ∧ gs[j]? = some g ∧ d = fall q g := by
  induction gs with
  | nil => intro past p _ _ j d hd; cases hd
  | cons g gs ih =>
    intro past p hp hpos j d hd
    have hmax : 0 < max p g := lt_max_of_lt_left hpos
    have hcons : drawdownsFrom (some p) (g :: gs) =
        fall (max p g) g :: drawdownsFrom (some (max p g)) gs := by
      rw [drawdownsFrom, bound_peak]
      dsimp only
      rw [if_pos hmax]
      rfl
    rw [hcons] at hd
    rcases j with _ | j
    · refine ⟨max p g, g, ?_, rfl, (Option.some.inj hd).symm⟩
      rw [reached_zero]
      exact isGreatest_max hp
    · obtain ⟨q, x, hq, hx, heq⟩ := ih (isGreatest_max hp) hmax j d hd
      refine ⟨q, x, ?_, hx, heq⟩
      rw [reached_succ, ← Set.union_assoc]
      exact hq

/-- Each drawdown is the fall from the greatest value so far. -/
theorem drawdowns_spec {curve : List ℚ} (hpos : ∀ g ∈ curve, 0 < g) {j : ℕ} {d : ℚ}
    (hd : (drawdowns curve)[j]? = some d) :
    ∃ q g, IsGreatest (reached curve j) q ∧ curve[j]? = some g ∧ d = fall q g := by
  rcases curve with _ | ⟨g, gs⟩
  · cases hd
  · obtain ⟨hg, -⟩ := List.forall_mem_cons.mp hpos
    have hcons : drawdowns (g :: gs) = fall g g :: drawdownsFrom (some g) gs := by
      have hbound : Scalar.bound (fun x y => decide (y < x)) none g = some g := by
        simp [Scalar.bound, Scalar.isNaN]
      unfold drawdowns
      rw [drawdownsFrom, hbound]
      dsimp only
      rw [if_pos hg]
      rfl
    rw [hcons] at hd
    rcases j with _ | j
    · refine ⟨g, g, ?_, rfl, (Option.some.inj hd).symm⟩
      rw [reached_zero]
      exact isGreatest_singleton
    · obtain ⟨q, x, hq, hx, heq⟩ := drawdownsFrom_spec gs isGreatest_singleton hg j d hd
      refine ⟨q, x, ?_, hx, heq⟩
      rw [reached_succ]
      exact hq

end

theorem length_drawdownsFrom (gs : List ℚ) : ∀ p, (drawdownsFrom p gs).length = gs.length := by
  induction gs with
  | nil => intro p; rfl
  | cons g gs ih => intro p; exact congrArg Nat.succ (ih _)

theorem length_drawdowns (curve : List ℚ) : (drawdowns curve).length = curve.length :=
  length_drawdownsFrom curve none

/-! ## The lowest drawdown -/

theorem isLeast_foldl (xs : List ℚ) : ∀ low : ℚ,
    IsLeast ({low} ∪ {x | x ∈ xs}) (xs.foldl (fun low x => if x < low then x else low) low) := by
  induction xs with
  | nil => intro low; simp
  | cons x xs ih =>
    intro low
    have hset : ({low} ∪ {z | z ∈ x :: xs} : Set ℚ) = {low, x} ∪ {z | z ∈ xs} := by
      ext z
      simp [or_assoc]
    have hpair : IsLeast {low, x} (if x < low then x else low) := by
      split_ifs with hlt
      · simp [IsLeast, lowerBounds, hlt.le]
      · simp [IsLeast, lowerBounds, not_lt.mp hlt]
    obtain ⟨hmem, hle⟩ := ih (if x < low then x else low)
    rw [List.foldl_cons, hset]
    constructor
    · rcases hmem with hmem | hmem
      · rw [Set.mem_singleton_iff.mp hmem]
        exact .inl hpair.1
      · exact .inr hmem
    · rintro z (hz | hz)
      · exact (hle (.inl rfl)).trans (hpair.2 hz)
      · exact hle (.inr hz)

/-- The lowest of some values and zero. -/
theorem isLeast_lowestBelowZero (xs : List ℚ) :
    IsLeast ({0} ∪ {x | x ∈ xs}) (lowestBelowZero xs) :=
  isLeast_foldl xs 0

section

variable {rs : List ℚ} (hreturns : ∀ r ∈ rs, -1 < r)
include hreturns

theorem growthCurve_pos : ∀ g ∈ growthCurve rs, 0 < g := by
  intro g hg
  obtain ⟨j, hj⟩ := List.getElem?_of_mem hg
  have hlt : j < rs.length := by
    have := (List.getElem?_eq_some_iff.mp hj).1
    rwa [length_growthCurve] at this
  rw [getElem?_growthCurve hlt] at hj
  exact Option.some.inj hj ▸ growthAt_pos hreturns j

/-- **The drawdowns are falls**, and no fall that ends in the same period is lower. -/
theorem drawdown_is_fall {j : ℕ} {d : ℚ} (hd : (drawdowns (growthCurve rs))[j]? = some d) :
    (∃ i ≤ j, j < rs.length ∧ d = fall (growthAt rs i) (growthAt rs j)) ∧
      ∀ i ≤ j, d ≤ fall (growthAt rs i) (growthAt rs j) := by
  obtain ⟨q, g, ⟨⟨i, hi, hq⟩, hgreatest⟩, hg, rfl⟩ := drawdowns_spec (growthCurve_pos hreturns) hd
  have hj : j < rs.length := by
    have := (List.getElem?_eq_some_iff.mp hg).1
    rwa [length_growthCurve] at this
  have hat : ∀ k ≤ j, (growthCurve rs)[k]? = some (growthAt rs k) :=
    fun k hk => getElem?_growthCurve (Nat.lt_of_le_of_lt hk hj)
  obtain rfl : q = growthAt rs i := Option.some.inj (hq.symm.trans (hat i hi))
  obtain rfl : g = growthAt rs j := Option.some.inj (hg.symm.trans (hat j le_rfl))
  refine ⟨⟨i, hi, hj, rfl⟩, fun k hk => ?_⟩
  exact fall_anti (growthAt_pos hreturns k) (hgreatest ⟨k, hk, hat k hk⟩) (growthAt_pos hreturns j)

theorem drawdown_nonpos {d : ℚ} (hd : d ∈ drawdowns (growthCurve rs)) : d ≤ 0 := by
  obtain ⟨j, hj⟩ := List.getElem?_of_mem hd
  have hle := (drawdown_is_fall hreturns hj).2 j le_rfl
  rwa [fall_self] at hle

/-- **The worst drawdown is the worst fall**, if there is any period. -/
theorem isLeast_falls (hne : rs ≠ []) :
    IsLeast (falls rs) (lowestBelowZero (drawdowns (growthCurve rs))) := by
  have hlen : (drawdowns (growthCurve rs)).length = rs.length := by
    rw [length_drawdowns, length_growthCurve]
  have hget : ∀ j < rs.length, ∃ d, (drawdowns (growthCurve rs))[j]? = some d :=
    fun j hj => ⟨_, List.getElem?_eq_getElem (hlen ▸ hj)⟩
  obtain ⟨hmem, hle⟩ := isLeast_lowestBelowZero (drawdowns (growthCurve rs))
  constructor
  · rcases hmem with hzero | hmem
    · -- the zero that the scan starts from is the fall from a period to itself
      rw [Set.mem_singleton_iff.mp hzero]
      exact ⟨0, 0, le_rfl, List.length_pos_of_ne_nil hne, (fall_self _).symm⟩
    · obtain ⟨j, hd⟩ := List.getElem?_of_mem hmem
      obtain ⟨⟨i, hi, hj, heq⟩, -⟩ := drawdown_is_fall hreturns hd
      exact ⟨i, j, hi, hj, heq⟩
  · rintro x ⟨i, j, hij, hj, rfl⟩
    obtain ⟨d, hd⟩ := hget j hj
    have hend := (drawdown_is_fall hreturns hd).2 i hij
    exact (hle (.inr (List.mem_of_getElem? hd))).trans hend

/-- A growth that never falls has no losses after the first period. -/
theorem nonneg_of_falls (h : ∀ x ∈ falls rs, 0 ≤ x) {j : ℕ} (hj : j + 1 < rs.length) :
    0 ≤ rs[j + 1] := by
  have hpos := growthAt_pos hreturns j
  have hrise : growthAt rs j ≤ growthAt rs j * (1 + rs[j + 1]) := by
    rw [← growthAt_succ hj, ← fall_nonneg_iff hpos]
    exact h _ ⟨j, j + 1, Nat.le_succ j, hj, rfl⟩
  linarith [(le_mul_iff_one_le_right hpos).mp hrise]

end

/-- **The maximum drawdown is the worst fall of the growth**, from any period to a later one, in
percent. So it lies above -100, is never positive, and zero exactly if no return is negative; and no
drawdown that the ulcer index takes the square of is larger. -/
theorem maxDrawdown_is_worst_fall {returns : List ℚ} (hfirst : returns.head? = some 0)
    (hreturns : ∀ r ∈ returns, -1 < r) (positions : List Position) (numTrades : ℕ) :
    let m := Metrics.of returns positions numTrades
    let ds := drawdowns (growthCurve returns)
    (∃ worst, IsLeast (falls returns) worst ∧ m.maxDrawdown = 100 * worst) ∧
      (-100 < m.maxDrawdown ∧ m.maxDrawdown ≤ 0) ∧
      (m.maxDrawdown = 0 ↔ ∀ r ∈ returns, 0 ≤ r) ∧
      m.ulcerIndex = rootMeanSquare ds * 100 ∧ ∀ d ∈ ds, d ^ 2 ≤ (m.maxDrawdown / 100) ^ 2 := by
  obtain ⟨rest, rfl⟩ := List.head?_eq_some_iff.mp hfirst
  intro m ds
  set worst := lowestBelowZero ds
  have hmax : m.maxDrawdown = 100 * worst := mul_comm worst 100
  have hleast : IsLeast (falls (0 :: rest)) worst := isLeast_falls hreturns (List.cons_ne_nil _ _)
  have hnonpos : worst ≤ 0 := hleast.2 ⟨0, 0, le_rfl, Nat.succ_pos _, (fall_self _).symm⟩
  obtain ⟨i, j, hij, hj, heq⟩ := hleast.1
  have hlow : -1 < worst := by
    rw [heq]
    exact neg_one_lt_fall (growthAt_pos hreturns i) (growthAt_pos hreturns j)
  refine ⟨⟨worst, hleast, hmax⟩, ⟨by linarith, by linarith⟩, ⟨?_, ?_⟩, rfl, ?_⟩
  · intro hzero r hr
    have hfalls : ∀ x ∈ falls (0 :: rest), 0 ≤ x := fun x hx => by linarith [hleast.2 hx]
    obtain ⟨k, hk, rfl⟩ := List.getElem_of_mem hr
    rcases k with _ | k
    · exact le_rfl
    · exact nonneg_of_falls hreturns hfalls hk
  · intro hall
    have hrise : 0 ≤ worst := by
      rw [heq, fall_nonneg_iff (growthAt_pos hreturns i)]
      exact growthAt_mono hall hij hj
    linarith
  · intro d hd
    have hworst : m.maxDrawdown / 100 = worst := by rw [hmax, mul_div_cancel_left₀ _ (by norm_num)]
    have hd0 : d ≤ 0 := drawdown_nonpos hreturns hd
    have hle : worst ≤ d := (isLeast_lowestBelowZero ds).2 (.inr hd)
    rw [hworst, sq_le_sq, abs_of_nonpos hd0, abs_of_nonpos hnonpos]
    linarith

/-- A gain of a tenth, a loss of a fifth and a gain of a tenth: the worst fall is the loss. -/
def lossOfFifth : List ℚ := [0, 1 / 10, -1 / 5, 1 / 10]

theorem maxDrawdown_lossOfFifth : lossOfFifth.head? = some 0 ∧ (∀ r ∈ lossOfFifth, -1 < r) ∧
    (Metrics.of lossOfFifth [] 0).maxDrawdown = -20 ∧ IsLeast (falls lossOfFifth) (-1 / 5) := by
  have hreturns : ∀ r ∈ lossOfFifth, -1 < r := by decide +kernel
  have hmax : (Metrics.of lossOfFifth [] 0).maxDrawdown = -20 := by decide +kernel
  obtain ⟨⟨worst, hleast, heq⟩, -⟩ := maxDrawdown_is_worst_fall rfl hreturns [] 0
  have hworst : worst = -1 / 5 := by linarith
  exact ⟨rfl, hreturns, hmax, hworst ▸ hleast⟩

end TickBacktest.Backtest
