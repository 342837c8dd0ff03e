import Mathlib.Algebra.Order.BigOperators.Group.List
import Mathlib.Algebra.Order.Field.Basic
import Mathlib.Algebra.Order.Field.Rat
import Mathlib.Tactic.FieldSimp
import Mathlib.Tactic.Linarith
import TickBacktest.Proofs.Indicator.GuardedWindow
import TickBacktest.Scalar.Rational

/-! # The relative strength as an oscillator

Over exact numbers. The scan over the changes of a window adds up what was gained and what was lost
(`gainsAndLosses_spec`), and the relative strength is the share of the gains in both, in percent
(`strength_eq_share`). What is known of it is known of that share: its bounds and where it reaches
them (`share_mem_Icc`, `share_eq_hundred_iff`, `share_eq_zero_iff`), that only the ratio of gains
and losses counts (`share_mul`), and that it is completed by the share of the losses
(`share_add_share`), which are the gains of the mirrored series. -/

namespace TickBacktest.Indicator

/-! ## Gains and losses -/

/-- What the positive changes add up to. -/
def totalGain (cs : List ℚ) : ℚ := (cs.map (max · 0)).sum

/-- What the negative changes add up to, with the sign turned. -/
def totalLoss (cs : List ℚ) : ℚ := totalGain (cs.map (-·))

section

variable {cs : List ℚ}

theorem totalGain_cons (c : ℚ) (cs : List ℚ) : totalGain (c :: cs) = max c 0 + totalGain cs := by
  unfold totalGain
  rw [List.map_cons, List.sum_cons]

theorem totalLoss_cons (c : ℚ) (cs : List ℚ) : totalLoss (c :: cs) = max (-c) 0 + totalLoss cs := by
  unfold totalLoss
  rw [List.map_cons, totalGain_cons]

theorem addChange_eq (gain loss c : ℚ) :
    addChange (gain, loss) c = (gain + max c 0, loss + max (-c) 0) := by
  unfold addChange
  rcases lt_trichotomy c 0 with h | rfl | h
  · rw [if_neg h.not_gt, if_pos h, max_eq_right h.le, max_eq_left (neg_nonneg.mpr h.le), add_zero,
      ← sub_eq_add_neg]
  · simp
  · rw [if_pos h, max_eq_left h.le, max_eq_right (neg_nonpos.mpr h.le), add_zero]

/-- **The scan adds up the gains and the losses.** -/
theorem gainsAndLosses_spec (cs : List ℚ) : gainsAndLosses cs = (totalGain cs, totalLoss cs) := by
  have hscan : ∀ gain loss : ℚ,
      cs.foldl addChange (gain, loss) = (gain + totalGain cs, loss + totalLoss cs) := by
    induction cs with
    | nil => exact fun gain loss => congrArg₂ _ (add_zero gain).symm (add_zero loss).symm
    | cons c cs ih =>
      intro gain loss
      rw [List.foldl_cons, addChange_eq, ih, totalGain_cons, totalLoss_cons, add_assoc, add_assoc]
  rw [gainsAndLosses_eq]
  refine (hscan 0 0).trans ?_
  rw [zero_add, zero_add]

theorem totalGain_nonneg (cs : List ℚ) : 0 ≤ totalGain cs := by
  refine List.sum_nonneg fun x hx => ?_
  obtain ⟨c, -, rfl⟩ := List.mem_map.mp hx
  exact le_max_right c 0

theorem totalGain_eq_zero_iff : totalGain cs = 0 ↔ ∀ c ∈ cs, c ≤ 0 := by
  induction cs with
  | nil => exact iff_of_true rfl fun c hc => absurd hc List.not_mem_nil
  | cons c cs ih =>
    rw [totalGain_cons, add_eq_zero_iff_of_nonneg (le_max_right c 0) (totalGain_nonneg cs), ih,
      max_eq_right_iff, List.forall_mem_cons]

theorem totalLoss_nonneg (cs : List ℚ) : 0 ≤ totalLoss cs := totalGain_nonneg _

theorem totalLoss_eq_zero_iff : totalLoss cs = 0 ↔ ∀ c ∈ cs, 0 ≤ c := by
  unfold totalLoss
  rw [totalGain_eq_zero_iff, List.forall_mem_map]
  simp only [neg_nonpos]

theorem totalLoss_pos_iff : 0 < totalLoss cs ↔ ∃ c ∈ cs, c < 0 := by
  rw [(totalLoss_nonneg cs).lt_iff_ne', ne_eq, totalLoss_eq_zero_iff]
  simp only [not_forall, not_le, exists_prop]

theorem totalGain_map_mul {k : ℚ} (hk : 0 ≤ k) (cs : List ℚ) :
    totalGain (cs.map (k * ·)) = k * totalGain cs := by
  induction cs with
  | nil => exact (mul_zero k).symm
  | cons c cs ih =>
    rw [List.map_cons, totalGain_cons, ih, totalGain_cons, mul_add, mul_max_of_nonneg _ _ hk,
      mul_zero]

theorem totalLoss_map_mul {k : ℚ} (hk : 0 ≤ k) (cs : List ℚ) :
    totalLoss (cs.map (k * ·)) = k * totalLoss cs := by
  unfold totalLoss
  rw [← totalGain_map_mul hk, List.map_map, List.map_map]
  refine congrArg totalGain (List.map_congr_left fun c _ => ?_)
  exact (mul_neg k c).symm

theorem totalLoss_map_neg (cs : List ℚ) : totalLoss (cs.map (-·)) = totalGain cs := by
  unfold totalLoss
  rw [List.map_map]
  refine congrArg totalGain ((List.map_congr_left fun c _ => ?_).trans (List.map_id cs))
  exact neg_neg c

end

/-! ## The share of the gains -/

/-- The share of the gains in all gains and losses, in percent; a hundred where nothing is lost. -/
def share (gain loss : ℚ) : ℚ := if loss = 0 then 100 else 100 * gain / (gain + loss)

section

variable {gain loss : ℚ} (hgain : 0 ≤ gain) (hloss : 0 ≤ loss)
include hgain hloss

theorem share_mem_Icc : share gain loss ∈ Set.Icc 0 100 := by
  unfold share
  split_ifs with hzero
  · exact ⟨by norm_num, le_rfl⟩
  · have hpos : 0 < gain + loss := add_pos_of_nonneg_of_pos hgain (hloss.lt_of_ne' hzero)
    exact ⟨by positivity, (div_le_iff₀ hpos).mpr (by linarith)⟩

theorem share_eq_hundred_iff : share gain loss = 100 ↔ loss = 0 := by
  unfold share
  split_ifs with hzero
  · exact iff_of_true rfl hzero
  · have hpos : 0 < gain + loss := add_pos_of_nonneg_of_pos hgain (hloss.lt_of_ne' hzero)
    rw [div_eq_iff hpos.ne']
    constructor <;> intro h <;> linarith

theorem share_eq_zero_iff : share gain loss = 0 ↔ gain = 0 ∧ 0 < loss := by
  unfold share
  split_ifs with hzero
  · exact iff_of_false (by norm_num) fun h => h.2.ne' hzero
  · have hlost : 0 < loss := hloss.lt_of_ne' hzero
    have hpos : 0 < gain + loss := add_pos_of_nonneg_of_pos hgain hlost
    rw [div_eq_zero_iff, or_iff_left hpos.ne', mul_eq_zero, or_iff_right (by norm_num),
      and_iff_left hlost]

end

/-- Only the ratio of gains and losses counts. -/
theorem share_mul {k : ℚ} (hk : 0 < k) (gain loss : ℚ) :
    share (k * gain) (k * loss) = share gain loss := by
  unfold share
  by_cases hzero : loss = 0
  · rw [if_pos hzero, if_pos (by rw [hzero, mul_zero])]
  · rw [if_neg hzero, if_neg (mul_ne_zero hk.ne' hzero), ← mul_add, mul_left_comm,
      mul_div_mul_left _ _ hk.ne']

/-- The shares of gains and losses make up the whole, if there is any change. -/
theorem share_add_share {gain loss : ℚ} (hpos : 0 < gain + loss) :
    share gain loss + share loss gain = 100 := by
  unfold share
  by_cases hl : loss = 0
  · by_cases hg : gain = 0
    · rw [hl, hg, add_zero] at hpos
      exact absurd hpos (lt_irrefl 0)
    · rw [if_pos hl, if_neg hg, hl, mul_zero, zero_div, add_zero]
  · by_cases hg : gain = 0
    · rw [if_neg hl, if_pos hg, hg, mul_zero, zero_div, zero_add]
    · rw [if_neg hl, if_neg hg, add_comm loss, ← add_div, ← mul_add,
        mul_div_cancel_right₀ _ hpos.ne']

/-- What the share of the losses leaves of a hundred, when both are taken per change. -/
theorem complement_eq_share {gain loss n : ℚ} (hgain : 0 ≤ gain) (hloss : 0 < loss) (hn : n ≠ 0) :
    100 - 100 / (1 + gain / n / (loss / n)) = 100 * gain / (gain + loss) := by
  have hall : gain + loss ≠ 0 := (add_pos_of_nonneg_of_pos hgain hloss).ne'
  have hratio : 1 + gain / n / (loss / n) = (gain + loss) / loss := by
    rw [div_div_div_cancel_right₀ hn, add_div, div_self hloss.ne', add_comm]
  rw [hratio, div_div_eq_mul_div, sub_eq_iff_eq_add, ← add_div, ← mul_add,
    mul_div_cancel_right₀ _ hall]

/-! ## Changes -/

theorem changes_cons_cons (x y : ℚ) (xs : List ℚ) :
    changes (x :: y :: xs) = (y - x) :: changes (y :: xs) := rfl

/-- What is done to all values of a series is seen in its changes alone. -/
theorem changes_map {f g : ℚ → ℚ} (h : ∀ x y, f y - f x = g (y - x)) (xs : List ℚ) :
    changes (xs.map f) = (changes xs).map g := by
  induction xs with
  | nil => rfl
  | cons x xs ih =>
    rcases xs with _ | ⟨y, xs⟩
    · rfl
    · rw [List.map_cons] at ih
      rw [List.map_cons, List.map_cons, changes_cons_cons, ih, changes_cons_cons, List.map_cons, h]

/-- Without a change all values are equal. -/
theorem eq_of_changes_eq_zero {x : ℚ} {xs : List ℚ} (h : ∀ c ∈ changes (x :: xs), c = 0) :
    ∀ y ∈ x :: xs, y = x := by
  induction xs generalizing x with
  | nil => exact fun y hy => List.mem_singleton.mp hy
  | cons z xs ih =>
    rw [changes_cons_cons, List.forall_mem_cons] at h
    obtain ⟨hzx, hlater⟩ := h
    obtain rfl : z = x := sub_eq_zero.mp hzx
    rw [List.forall_mem_cons]
    exact ⟨rfl, ih hlater⟩

/-- If not all values are equal, something is gained or lost. -/
theorem totalGain_add_totalLoss_pos {xs : List ℚ} (h : ∃ x ∈ xs, ∃ y ∈ xs, x ≠ y) :
    0 < totalGain (changes xs) + totalLoss (changes xs) := by
  have hgain := totalGain_nonneg (changes xs)
  have hloss := totalLoss_nonneg (changes xs)
  refine lt_of_le_of_ne (add_nonneg hgain hloss) fun hzero => ?_
  obtain ⟨hg, hl⟩ := (add_eq_zero_iff_of_nonneg hgain hloss).mp hzero.symm
  have hnone : ∀ c ∈ changes xs, c = 0 := fun c hc =>
    le_antisymm (totalGain_eq_zero_iff.mp hg c hc) (totalLoss_eq_zero_iff.mp hl c hc)
  obtain ⟨x, hx, y, hy, hne⟩ := h
  obtain ⟨z, zs, rfl⟩ := List.exists_cons_of_ne_nil (List.ne_nil_of_mem hx)
  have hequal := eq_of_changes_eq_zero hnone
  exact hne ((hequal x hx).trans (hequal y hy).symm)

/-! ## The relative strength -/

/-- The changes that the relative strength looks at: the last ones, as many as its window says. -/
def lastChanges (xs : List ℚ) (window : ℕ) : List ℚ := changes (xs.rtake (window + 1))

theorem rtake_map (f : ℚ → ℚ) (xs : List ℚ) (n : ℕ) : (xs.map f).rtake n = (xs.rtake n).map f := by
  unfold List.rtake
  rw [List.length_map, List.map_drop]

theorem lastChanges_map {f g : ℚ → ℚ} (h : ∀ x y, f y - f x = g (y - x)) (xs : List ℚ)
    (window : ℕ) : lastChanges (xs.map f) window = (lastChanges xs window).map g := by
  unfold lastChanges
  rw [rtake_map, changes_map h]

section

variable {xs : List ℚ} {window : ℕ} (hpos : 1 ≤ window) (hsize : window < Decimal.maxSize)
  (hlen : window + 1 ≤ xs.length)
include hpos hsize hlen

/-- **The relative strength is the share of the gains.** -/
theorem strength_eq_share : relativeStrength xs window =
    .ok (share (totalGain (lastChanges xs window)) (totalLoss (lastChanges xs window))) := by
  have hwindow : (window : ℚ) ≠ 0 := Nat.cast_ne_zero.mpr (by omega)
  have hlag : withLag window = window + 1 := Nat.min_eq_left hsize
  unfold relativeStrength lastChanges
  rw [hlag, trailing_of_le hlen, ok_bind, gainsAndLosses_spec]
  set gain := totalGain (changes (xs.rtake (window + 1)))
  set loss := totalLoss (changes (xs.rtake (window + 1))) with hloss
  by_cases hzero : loss = 0
  · have hshare : share gain loss = 100 := if_pos hzero
    have hnone : (loss / (window : ℚ) == 0) = true := by
      rw [hzero, zero_div]
      exact beq_self_eq_true 0
    rw [hshare]
    exact if_pos hnone
  · have hshare : share gain loss = 100 * gain / (gain + loss) := if_neg hzero
    have hsome : ¬ (loss / (window : ℚ) == 0) = true := by
      rw [beq_iff_eq]
      exact div_ne_zero hzero hwindow
    rw [hshare]
    refine (if_neg hsome).trans (congrArg Except.ok ?_)
    exact complement_eq_share (totalGain_nonneg _) ((totalLoss_nonneg _).lt_of_ne' hzero) hwindow

end

/-- **A relative strength oscillates** between zero and a hundred: it reaches the one where some
change is a loss and none a gain, the other where none is a loss. Shifting or stretching the series
does not change it, and mirroring completes it to a hundred, unless all values are equal. -/
structure Oscillates (xs : List ℚ) (window : ℕ) (strength : ℚ) : Prop where
  value : relativeStrength xs window = .ok strength
  mem_Icc : strength ∈ Set.Icc 0 100
  eq_hundred_iff : strength = 100 ↔ ∀ c ∈ lastChanges xs window, 0 ≤ c
  eq_zero_iff : strength = 0 ↔
    (∀ c ∈ lastChanges xs window, c ≤ 0) ∧ ∃ c ∈ lastChanges xs window, c < 0
  shifted : ∀ k, relativeStrength (xs.map (· + k)) window = .ok strength
  stretched : ∀ k, 0 < k → relativeStrength (xs.map (k * ·)) window = .ok strength
  mirrored : (∃ x ∈ xs.rtake (window + 1), ∃ y ∈ xs.rtake (window + 1), x ≠ y) →
    ∃ m, relativeStrength (xs.map (-·)) window = .ok m ∧ strength + m = 100

/-- **The relative strength is a bounded oscillator**, for every series in memory, whose length is
a size. -/
theorem strength_oscillates {xs : List ℚ} {window : ℕ} (hpos : 1 ≤ window)
    (hlen : window + 1 ≤ xs.length) (hmemory : xs.length ≤ Decimal.maxSize) :
    ∃ strength, Oscillates xs window strength := by
  have hsize : window < Decimal.maxSize := hlen.trans hmemory
  set cs := lastChanges xs window with hcs
  have hgain := totalGain_nonneg cs
  have hloss := totalLoss_nonneg cs
  have hmapped : ∀ f : ℚ → ℚ, relativeStrength (xs.map f) window = .ok (share
      (totalGain (lastChanges (xs.map f) window)) (totalLoss (lastChanges (xs.map f) window))) :=
    fun f => strength_eq_share hpos hsize (by rwa [List.length_map])
  refine ⟨_, strength_eq_share hpos hsize hlen, share_mem_Icc hgain hloss, ?_, ?_, fun k => ?_,
    fun k hk => ?_, fun hdiffer => ⟨_, hmapped _, ?_⟩⟩
  · rw [share_eq_hundred_iff hgain hloss, totalLoss_eq_zero_iff]
  · rw [share_eq_zero_iff hgain hloss, totalGain_eq_zero_iff, totalLoss_pos_iff]
  · have hsame : lastChanges (xs.map (· + k)) window = cs.map id :=
      lastChanges_map (fun x y => add_sub_add_right_eq_sub y x k) xs window
    rw [hmapped, hsame, List.map_id]
  · have hstretched : lastChanges (xs.map (k * ·)) window = cs.map (k * ·) :=
      lastChanges_map (fun x y => (mul_sub k y x).symm) xs window
    rw [hmapped, hstretched, totalGain_map_mul hk.le, totalLoss_map_mul hk.le, share_mul hk]
  · have hturned : lastChanges (xs.map (-·)) window = cs.map (-·) :=
      lastChanges_map (fun x y => by rw [neg_sub_neg, neg_sub]) xs window
    have hturnedGain : totalGain (cs.map (-·)) = totalLoss cs := rfl
    rw [hturned, totalLoss_map_neg, hturnedGain]
    exact share_add_share (totalGain_add_totalLoss_pos hdiffer)

/-- Two gains and a loss, after a value that the window does not reach. -/
def mostlyGains : List ℚ := [100, 10, 12, 11, 12]

theorem strength_mostlyGains : 1 ≤ 3 ∧ 3 + 1 ≤ mostlyGains.length ∧
    mostlyGains.length ≤ Decimal.maxSize ∧ Oscillates mostlyGains 3 75 := by
  have hlen : 3 + 1 ≤ mostlyGains.length := by decide
  have hmemory : mostlyGains.length ≤ Decimal.maxSize := by decide +kernel
  obtain ⟨strength, h⟩ := strength_oscillates (by decide) hlen hmemory
  have hvalue : (relativeStrength mostlyGains 3).toOption = some 75 := by decide +kernel
  rw [h.value] at hvalue
  obtain rfl : strength = 75 := Option.some.inj hvalue
  exact ⟨by decide, hlen, hmemory, h⟩

end TickBacktest.Indicator
