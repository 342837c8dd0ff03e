import Mathlib.Algebra.Order.Field.Basic
import TickBacktest.Indicator.Trend
import TickBacktest.Proofs.Indicator.Average
import TickBacktest.Proofs.Indicator.Horizon
import TickBacktest.Proofs.Indicator.Quantile

/-! # Statistics stay inside their window

Over exact numbers. The extremes of a window are values of it (`exists_least`, `exists_greatest`),
and whatever is averaged from its values lies between them: the mean, the quantiles, and the
exponential average, each step of which lies between a value and what was there before
(`smoothed_mem_Icc`). All but the exponential average depend on the values alone and not on their
order (`SameStatistics.of_perm`), the quantiles because the order of sorted values is settled
(`sort_eq_of_perm`). -/

namespace TickBacktest.Indicator

/-! ## Extremes -/

section

variable {better : ℚ → ℚ → Bool} {r : ℚ → ℚ → Prop}

/-- The bound that a scan keeps after `b` is `b` or one of the values seen, and no value is
better. -/
theorem exists_foldl_bound_some (hrefl : ∀ x, r x x) (htrans : ∀ x y z, r x y → r y z → r x z)
    (hbetter : ∀ x y, better x y = true → r x y) (hnot : ∀ x y, better x y = false → r y x)
    (xs : List ℚ) : ∀ b, ∃ m, xs.foldl (Scalar.bound better) (some b) = some m ∧ m ∈ b :: xs ∧
      ∀ x ∈ b :: xs, r m x := by
  induction xs with
  | nil => exact fun b => ⟨b, rfl, List.mem_singleton_self b, by simpa using hrefl b⟩
  | cons y ys ih =>
    intro b
    obtain ⟨m, hm, hmem, hbest⟩ := ih (if better y b then y else b)
    have hstep : r (if better y b then y else b) y ∧ r (if better y b then y else b) b := by
      cases h : better y b
      · exact ⟨hnot y b h, hrefl b⟩
      · exact ⟨hrefl y, hbetter y b h⟩
    have hnew := hbest _ List.mem_cons_self
    refine ⟨m, hm, ?_, ?_⟩
    · rcases List.mem_cons.mp hmem with rfl | hlater
      · split_ifs <;> simp
      · exact List.mem_cons_of_mem _ (List.mem_cons_of_mem _ hlater)
    · intro x hx
      rcases List.mem_cons.mp hx with rfl | hx
      · exact htrans _ _ _ hnew hstep.2
      · rcases List.mem_cons.mp hx with rfl | hx
        · exact htrans _ _ _ hnew hstep.1
        · exact hbest x (List.mem_cons_of_mem _ hx)

/-- **The bound of some values is one of them**, and none is better. -/
theorem exists_foldl_bound (hrefl : ∀ x, r x x) (htrans : ∀ x y z, r x y → r y z → r x z)
    (hbetter : ∀ x y, better x y = true → r x y) (hnot : ∀ x y, better x y = false → r y x)
    {xs : List ℚ} (hne : xs ≠ []) :
    ∃ m, xs.foldl (Scalar.bound better) none = some m ∧ m ∈ xs ∧ ∀ x ∈ xs, r m x := by
  obtain ⟨b, xs, rfl⟩ := List.exists_cons_of_ne_nil hne
  have hfirst : Scalar.bound better none b = some b := by simp [Scalar.bound, Scalar.isNaN]
  rw [List.foldl_cons, hfirst]
  exact exists_foldl_bound_some hrefl htrans hbetter hnot xs b

end

section

variable {xs : List ℚ} (hne : xs ≠ [])
include hne

theorem exists_least : ∃ m, Scalar.least? xs = some m ∧ IsLeast {x | x ∈ xs} m :=
  exists_foldl_bound le_refl (fun _ _ _ => le_trans) (fun _ _ h => (of_decide_eq_true h).le)
    (fun _ _ h => not_lt.mp (of_decide_eq_false h)) hne

theorem exists_greatest : ∃ m, Scalar.greatest? xs = some m ∧ IsGreatest {x | x ∈ xs} m :=
  exists_foldl_bound (r := (· ≥ ·)) le_refl (fun _ _ _ => ge_trans)
    (fun _ _ h => (of_decide_eq_true h).le) (fun _ _ h => not_lt.mp (of_decide_eq_false h)) hne

end

/-! ## Smoothing -/

/-- One step of the exponential average stays between the bounds. -/
theorem weighted_mem_Icc {weight x m lo hi : ℚ} (hzero : 0 ≤ weight) (hone : weight ≤ 1)
    (hx : x ∈ Set.Icc lo hi) (hm : m ∈ Set.Icc lo hi) :
    weight * x + (1 - weight) * m ∈ Set.Icc lo hi := by
  have hrest : 0 ≤ 1 - weight := sub_nonneg.mpr hone
  have hlo := add_le_add (mul_le_mul_of_nonneg_left hx.1 hzero)
    (mul_le_mul_of_nonneg_left hm.1 hrest)
  have hhi := add_le_add (mul_le_mul_of_nonneg_left hx.2 hzero)
    (mul_le_mul_of_nonneg_left hm.2 hrest)
  constructor <;> linarith

/-- **Smoothing stays between the bounds of what is smoothed.** -/
theorem smoothed_mem_Icc {weight lo hi : ℚ} (hzero : 0 ≤ weight) (hone : weight ≤ 1)
    (xs : List ℚ) : ∀ seed ∈ Set.Icc lo hi, (∀ x ∈ xs, x ∈ Set.Icc lo hi) →
      xs.foldl (fun m x => weight * x + (1 - weight) * m) seed ∈ Set.Icc lo hi := by
  induction xs with
  | nil => exact fun seed hseed _ => hseed
  | cons x xs ih =>
    intro seed hseed hxs
    obtain ⟨hx, hlater⟩ := List.forall_mem_cons.mp hxs
    exact ih _ (weighted_mem_Icc hzero hone hx hseed) hlater

/-! ## Sorting -/

theorem pairwise_sort (xs : List ℚ) : (xs.mergeSort Scalar.inOrder).Pairwise (· ≤ ·) := by
  have htrans : ∀ a b c : ℚ, Scalar.inOrder a b = true → Scalar.inOrder b c = true →
      Scalar.inOrder a c = true :=
    fun _ _ _ hab hbc => decide_eq_true ((of_decide_eq_true hab).trans (of_decide_eq_true hbc))
  have htotal : ∀ a b : ℚ, (Scalar.inOrder a b || Scalar.inOrder b a) = true := by
    intro a b
    rw [Bool.or_eq_true]
    exact (le_total a b).imp decide_eq_true decide_eq_true
  exact (List.pairwise_mergeSort htrans htotal xs).imp of_decide_eq_true

/-- Values that are the same but for their order are the same when sorted. -/
theorem sort_eq_of_perm {xs ys : List ℚ} (h : ys.Perm xs) :
    ys.mergeSort Scalar.inOrder = xs.mergeSort Scalar.inOrder := by
  have hperm := (ys.mergeSort_perm Scalar.inOrder).trans
    (h.trans (xs.mergeSort_perm Scalar.inOrder).symm)
  exact hperm.eq_of_pairwise (fun _ _ _ _ => le_antisymm) (pairwise_sort ys) (pairwise_sort xs)

section

variable {xs : List ℚ} (hne : xs ≠ [])
include hne

theorem sort_ne_nil : xs.mergeSort Scalar.inOrder ≠ [] := by
  refine List.ne_nil_of_length_pos ?_
  rw [List.length_mergeSort]
  exact List.length_pos_of_ne_nil hne

theorem isLeast_quantile_sort :
    IsLeast {x | x ∈ xs} (quantile (xs.mergeSort Scalar.inOrder) 0) := by
  have hleast := isLeast_quantile_zero (pairwise_sort xs) (sort_ne_nil hne)
  simpa only [List.mem_mergeSort] using hleast

theorem isGreatest_quantile_sort :
    IsGreatest {x | x ∈ xs} (quantile (xs.mergeSort Scalar.inOrder) 1) := by
  have hgreatest := isGreatest_quantile_one (pairwise_sort xs) (sort_ne_nil hne)
  simpa only [List.mem_mergeSort] using hgreatest

theorem quantile_sort_mono {p q : ℚ} (hp : 0 ≤ p) (hpq : p ≤ q) (hq : q ≤ 1) :
    quantile (xs.mergeSort Scalar.inOrder) p ≤ quantile (xs.mergeSort Scalar.inOrder) q :=
  quantile_mono (pairwise_sort xs) (sort_ne_nil hne) hp hpq hq

end

/-! ## Windows -/

/-- The statistics of the last `window` values lie between the extremes `lo` and `hi`, which are
values of the window; its quantiles, at two fractions `p` and `q`, are in the order of these. The
mean of a window is what both SMA and MEAN stand for. -/
structure BetweenExtremes (xs : List ℚ) (window : ℕ) (p q lo hi : ℚ) : Prop where
  lowest : Indicator.lowest xs window = .ok lo
  highest : Indicator.highest xs window = .ok hi
  lowest_mem : lo ∈ xs.rtake window
  highest_mem : hi ∈ xs.rtake window
  average : ∃ sum m, movingSum xs window = .ok sum ∧ movingAverage xs window = .ok m ∧
    m = sum / window ∧ m ∈ Set.Icc lo hi
  exponential : ∃ m, exponentialAverage xs window = some m ∧ m ∈ Set.Icc lo hi
  percentiles : ∃ a b, percentile xs window p = .ok a ∧ percentile xs window q = .ok b ∧
    lo ≤ a ∧ a ≤ b ∧ b ≤ hi
  percentile_zero : percentile xs window 0 = .ok lo
  percentile_one : percentile xs window 1 = .ok hi

/-- The statistics of two windows, but for the exponential average, are the same. -/
structure SameStatistics (xs ys : List ℚ) (window : ℕ) : Prop where
  average : movingAverage ys window = movingAverage xs window
  sum : movingSum ys window = movingSum xs window
  lowest : Indicator.lowest ys window = Indicator.lowest xs window
  highest : Indicator.highest ys window = Indicator.highest xs window
  percentile : ∀ fraction, Indicator.percentile ys window fraction =
    Indicator.percentile xs window fraction

section

variable {xs : List ℚ} {window : ℕ}

theorem length_rtake_of_le (h : window ≤ xs.length) : (xs.rtake window).length = window := by
  rw [Market.length_rtake, Nat.min_eq_left h]

theorem rtake_ne_nil (hpos : 1 ≤ window) (h : window ≤ xs.length) : xs.rtake window ≠ [] := by
  refine List.ne_nil_of_length_pos ?_
  rw [length_rtake_of_le h]
  exact hpos

theorem sum_of_le (h : window ≤ xs.length) :
    movingSum xs window = .ok (xs.rtake window).sum := by
  unfold movingSum
  rw [trailing_of_le h, ← scalarSum_eq]
  rfl

theorem average_of_le (h : window ≤ xs.length) :
    movingAverage xs window = .ok (mean (xs.rtake window)) := by
  unfold movingAverage
  rw [trailing_of_le h]
  rfl

theorem percentile_of_le (h : window ≤ xs.length) (fraction : ℚ) : percentile xs window fraction =
    .ok (quantile ((xs.rtake window).mergeSort Scalar.inOrder) fraction) := by
  unfold percentile
  rw [trailing_of_le h]
  rfl

theorem exists_lowest (hpos : 1 ≤ window) (h : window ≤ xs.length) :
    ∃ lo, lowest xs window = .ok lo ∧ IsLeast {x | x ∈ xs.rtake window} lo := by
  obtain ⟨lo, hlo, hleast⟩ := exists_least (rtake_ne_nil hpos h)
  refine ⟨lo, ?_, hleast⟩
  unfold lowest
  rw [trailing_of_le h]
  exact congrArg (fun m => Except.ok (m.getD Scalar.infinity)) hlo

theorem exists_highest (hpos : 1 ≤ window) (h : window ≤ xs.length) :
    ∃ hi, highest xs window = .ok hi ∧ IsGreatest {x | x ∈ xs.rtake window} hi := by
  obtain ⟨hi, hhi, hgreatest⟩ := exists_greatest (rtake_ne_nil hpos h)
  refine ⟨hi, ?_, hgreatest⟩
  unfold highest
  rw [trailing_of_le h]
  exact congrArg (fun m => Except.ok (m.getD (-Scalar.infinity))) hhi

/-- The exponential average lies between any bounds of the window. -/
theorem exists_exponentialAverage (hpos : 1 ≤ window) (h : window ≤ xs.length) {lo hi : ℚ}
    (hmem : ∀ x ∈ xs.rtake window, x ∈ Set.Icc lo hi) :
    ∃ m, exponentialAverage xs window = some m ∧ m ∈ Set.Icc lo hi := by
  obtain ⟨seed, later, htail⟩ := List.exists_cons_of_ne_nil (rtake_ne_nil hpos h)
  have hdrop : xs.drop (xs.length - window) = seed :: later := htail
  rw [htail] at hmem
  obtain ⟨hseed, hlater⟩ := List.forall_mem_cons.mp hmem
  have hwindow : (1 : ℚ) ≤ window := Nat.one_le_cast.mpr hpos
  have hzero : (0 : ℚ) ≤ 2 / (window + 1) := div_nonneg zero_le_two (by linarith)
  have hone : (2 : ℚ) / (window + 1) ≤ 1 := (div_le_one (by linarith)).mpr (by linarith)
  refine ⟨_, ?_, smoothed_mem_Icc hzero hone later seed hseed hlater⟩
  unfold exponentialAverage
  rw [if_neg (by omega), hdrop]

end

/-! ## The laws of a window -/

theorem mean_eq_of_perm {xs ys : List ℚ} (h : ys.Perm xs) : mean ys = mean xs := by
  rw [mean_eq, mean_eq, h.sum_eq, h.length_eq]

section

variable {xs : List ℚ} {window : ℕ} (hpos : 1 ≤ window) (h : window ≤ xs.length)
include hpos h

/-- **The order of the values does not matter.** -/
theorem SameStatistics.of_perm {ys : List ℚ} (hperm : (ys.rtake window).Perm (xs.rtake window)) :
    SameStatistics xs ys window := by
  have hys : window ≤ ys.length := by
    have hlen := hperm.length_eq
    rw [Market.length_rtake, Market.length_rtake] at hlen
    omega
  have hsame : {x | x ∈ ys.rtake window} = {x | x ∈ xs.rtake window} :=
    Set.ext fun _ => hperm.mem_iff
  obtain ⟨lo, hlo, hleast⟩ := exists_lowest hpos h
  obtain ⟨hi, hhi, hgreatest⟩ := exists_highest hpos h
  obtain ⟨lo', hlo', hleast'⟩ := exists_lowest hpos hys
  obtain ⟨hi', hhi', hgreatest'⟩ := exists_highest hpos hys
  rw [hsame] at hleast' hgreatest'
  refine ⟨?_, ?_, ?_, ?_, fun fraction => ?_⟩
  · rw [average_of_le h, average_of_le hys, mean_eq_of_perm hperm]
  · rw [sum_of_le h, sum_of_le hys, hperm.sum_eq]
  · rw [hlo, hlo', hleast.unique hleast']
  · rw [hhi, hhi', hgreatest.unique hgreatest']
  · rw [percentile_of_le h, percentile_of_le hys, sort_eq_of_perm hperm]

theorem exists_betweenExtremes {p q : ℚ} (hp : 0 ≤ p) (hpq : p ≤ q) (hq : q ≤ 1) :
    ∃ lo hi, BetweenExtremes xs window p q lo hi := by
  have hne := rtake_ne_nil hpos h
  obtain ⟨lo, hlo, hleast⟩ := exists_lowest hpos h
  obtain ⟨hi, hhi, hgreatest⟩ := exists_highest hpos h
  have hmem : ∀ x ∈ xs.rtake window, x ∈ Set.Icc lo hi :=
    fun x hx => ⟨hleast.2 hx, hgreatest.2 hx⟩
  have hzero := (isLeast_quantile_sort hne).unique hleast
  have hone := (isGreatest_quantile_sort hne).unique hgreatest
  have hwindow : ((xs.rtake window).length : ℚ) = window := congrArg _ (length_rtake_of_le h)
  refine ⟨lo, hi, hlo, hhi, hleast.1, hgreatest.1, ?_, exists_exponentialAverage hpos h hmem, ?_,
    ?_, ?_⟩
  · refine ⟨_, _, sum_of_le h, average_of_le h, ?_, mean_mem_Icc hne hmem⟩
    rw [mean_eq, hwindow]
  · refine ⟨_, _, percentile_of_le h p, percentile_of_le h q, ?_, ?_, ?_⟩
    · rw [← hzero]
      exact quantile_sort_mono hne le_rfl hp (hpq.trans hq)
    · exact quantile_sort_mono hne hp hpq hq
    · rw [← hone]
      exact quantile_sort_mono hne (hp.trans hpq) hq le_rfl
  · rw [percentile_of_le h, hzero]
  · rw [percentile_of_le h, hone]

end

/-- **The statistics of a window stay inside it**, and the order of its values does not matter. -/
theorem window_statistics_bounded {xs : List ℚ} {window : ℕ} (hpos : 1 ≤ window)
    (hlen : window ≤ xs.length) {p q : ℚ} (hp : 0 ≤ p) (hpq : p ≤ q) (hq : q ≤ 1) :
    (∃ lo hi, BetweenExtremes xs window p q lo hi) ∧
      ∀ ys : List ℚ, (ys.rtake window).Perm (xs.rtake window) → SameStatistics xs ys window :=
  ⟨exists_betweenExtremes hpos hlen hp hpq hq, fun _ hperm => .of_perm hpos hlen hperm⟩

/-- Five values, of which the last three are not in order. -/
def unordered : List ℚ := [5, 3, 8, -1, 4]

theorem window_statistics_unordered : 1 ≤ 3 ∧ 3 ≤ unordered.length ∧
    (0 : ℚ) ≤ 1 / 4 ∧ (1 / 4 : ℚ) ≤ 3 / 4 ∧ (3 / 4 : ℚ) ≤ 1 ∧
    BetweenExtremes unordered 3 (1 / 4) (3 / 4) (-1) 8 ∧
    SameStatistics unordered [5, 3, 4, 8, -1] 3 := by
  have hp : (0 : ℚ) ≤ 1 / 4 := by decide +kernel
  have hpq : (1 / 4 : ℚ) ≤ 3 / 4 := by decide +kernel
  have hq : (3 / 4 : ℚ) ≤ 1 := by decide +kernel
  have hlen : 3 ≤ unordered.length := by decide
  obtain ⟨⟨lo, hi, hbetween⟩, hsame⟩ := window_statistics_bounded (by decide) hlen hp hpq hq
  have hlo : lowest unordered 3 = .ok (-1) := by rfl
  have hhi : highest unordered 3 = .ok 8 := by rfl
  obtain rfl : lo = -1 := Except.ok.inj (hbetween.lowest.symm.trans hlo)
  obtain rfl : hi = 8 := Except.ok.inj (hbetween.highest.symm.trans hhi)
  have hperm : ([5, 3, 4, 8, -1].rtake 3 : List ℚ).Perm (unordered.rtake 3) := by decide +kernel
  exact ⟨by decide, hlen, hp, hpq, hq, hbetween, hsame _ hperm⟩

end TickBacktest.Indicator
