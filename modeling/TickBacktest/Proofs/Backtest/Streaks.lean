import Mathlib.Data.List.Infix
import Mathlib.Order.Bounds.Image
import Mathlib.Order.Bounds.Lattice
import TickBacktest.Backtest.Metrics
import TickBacktest.Proofs.Scalar.Doubles

/-! # Streaks of wins and of losses

The scan for streaks keeps four counts: of the wins and of the losses each, the longest streak so
far and the one still going on. A win carries its streak on and ends the streak of losses, a loss
the other way round, and a flat return, neither a win nor a loss, touches none of them. So the
scan counts in the list without the flat returns (`Streaks.Counts.next`, `Streaks.Counts.foldl`):

* a streak still going on is the longest run of its kind that ends the list
  (`closingLengths_concat_of_pos`, `closingLengths_concat_of_neg`);
* a run in a list that is one longer was there before, or ends it (`runLengths_concat`), so that the
  longest streak is the longest run anywhere (`streaks_skip_flat_returns`).
-/

namespace TickBacktest.Backtest

/-! ## Runs in a list -/

section

variable {α : Type} {p : α → Prop} {xs : List α} {x : α} {longest current : ℕ}

/-- The lengths of the runs in a list: blocks that hold only elements with the property. -/
def runLengths (p : α → Prop) (xs : List α) : Set ℕ :=
  {n | ∃ block, block <:+: xs ∧ (∀ x ∈ block, p x) ∧ block.length = n}

/-- The lengths of the runs that end a list. -/
def closingLengths (p : α → Prop) (xs : List α) : Set ℕ :=
  {n | ∃ block, block <:+ xs ∧ (∀ x ∈ block, p x) ∧ block.length = n}

theorem zero_mem_closingLengths (p : α → Prop) (xs : List α) : 0 ∈ closingLengths p xs :=
  ⟨[], List.nil_suffix, List.forall_mem_nil p, rfl⟩

theorem runLengths_nil (p : α → Prop) : runLengths p [] = closingLengths p [] := by
  unfold runLengths closingLengths
  simp only [List.infix_nil, List.suffix_nil]

/-- A run was there before the last element, or ends with it. -/
theorem runLengths_concat (p : α → Prop) (xs : List α) (x : α) :
    runLengths p (xs ++ [x]) = runLengths p xs ∪ closingLengths p (xs ++ [x]) := by
  ext n
  constructor
  · rintro ⟨block, hblock, hp, hn⟩
    rcases List.infix_concat_iff.mp hblock with hsuffix | hinfix
    · exact .inr ⟨block, hsuffix, hp, hn⟩
    · exact .inl ⟨block, hinfix, hp, hn⟩
  · rintro (⟨block, hinfix, hp, hn⟩ | ⟨block, hsuffix, hp, hn⟩)
    · exact ⟨block, List.infix_concat_iff.mpr (.inr hinfix), hp, hn⟩
    · exact ⟨block, hsuffix.isInfix, hp, hn⟩

/-- An element with the property makes each run that ends the list one longer. -/
theorem closingLengths_concat_of_pos (hx : p x) :
    closingLengths p (xs ++ [x]) = insert 0 (Nat.succ '' closingLengths p xs) := by
  ext n
  constructor
  · rintro ⟨block, hblock, hp, rfl⟩
    rcases List.suffix_concat_iff.mp hblock with rfl | ⟨block, rfl, hsuffix⟩
    · exact .inl rfl
    · rw [List.length_append]
      exact .inr ⟨block.length, ⟨block, hsuffix, (List.forall_mem_append.mp hp).1, rfl⟩, rfl⟩
  · rintro (rfl | ⟨_, ⟨block, hsuffix, hp, rfl⟩, rfl⟩)
    · exact zero_mem_closingLengths p _
    · refine ⟨block ++ [x], List.suffix_concat_iff.mpr (.inr ⟨block, rfl, hsuffix⟩), ?_, ?_⟩
      · exact List.forall_mem_append.mpr ⟨hp, List.forall_mem_singleton.mpr hx⟩
      · exact List.length_append

/-- No run but the empty one ends with an element without the property. -/
theorem closingLengths_concat_of_neg (hx : ¬ p x) : closingLengths p (xs ++ [x]) = {0} := by
  ext n
  constructor
  · rintro ⟨block, hblock, hp, rfl⟩
    rcases List.suffix_concat_iff.mp hblock with rfl | ⟨block, rfl, -⟩
    · rfl
    · exact absurd (hp x (List.mem_append_right _ (List.mem_singleton_self x))) hx
  · rintro rfl
    exact zero_mem_closingLengths p _

/-- **What is counted of one kind**: the longest run in a list, and the longest that ends it. -/
structure Counted (p : α → Prop) (xs : List α) (longest current : ℕ) : Prop where
  longest : IsGreatest (runLengths p xs) longest
  current : IsGreatest (closingLengths p xs) current

theorem counted_nil (p : α → Prop) : Counted p [] 0 0 := by
  have hcurrent : IsGreatest (closingLengths p []) 0 := by
    refine ⟨zero_mem_closingLengths p [], ?_⟩
    rintro n ⟨block, hblock, -, rfl⟩
    exact hblock.length_le
  refine ⟨?_, hcurrent⟩
  rw [runLengths_nil]
  exact hcurrent

/-- An element with the property carries the run at the end on. -/
theorem Counted.extend (h : Counted p xs longest current) (hx : p x) :
    Counted p (xs ++ [x]) (max longest (current + 1)) (current + 1) := by
  have hcurrent : IsGreatest (closingLengths p (xs ++ [x])) (current + 1) := by
    have hsucc : Monotone Nat.succ := fun _ _ => Nat.succ_le_succ
    rw [closingLengths_concat_of_pos hx, ← Nat.zero_max (current + 1)]
    exact (hsucc.map_isGreatest h.current).insert 0
  refine ⟨?_, hcurrent⟩
  rw [runLengths_concat]
  exact h.longest.union hcurrent

/-- An element without the property ends it. -/
theorem Counted.interrupt (h : Counted p xs longest current) (hx : ¬ p x) :
    Counted p (xs ++ [x]) longest 0 := by
  have hcurrent : IsGreatest (closingLengths p (xs ++ [x])) 0 := by
    rw [closingLengths_concat_of_neg hx]
    exact isGreatest_singleton
  refine ⟨?_, hcurrent⟩
  rw [runLengths_concat, ← Nat.max_zero longest]
  exact h.longest.union hcurrent

/-- The longest run is empty exactly if no element has the property. -/
theorem Counted.longest_eq_zero_iff (h : Counted p xs longest current) :
    longest = 0 ↔ ∀ x ∈ xs, ¬ p x := by
  constructor
  · rintro rfl x hx hpx
    have hone : 1 ∈ runLengths p xs :=
      ⟨[x], (List.singleton_infix_iff x xs).mpr hx, List.forall_mem_singleton.mpr hpx, rfl⟩
    exact Nat.not_succ_le_zero 0 (h.longest.2 hone)
  · intro hnone
    obtain ⟨block, hblock, hp, rfl⟩ := h.longest.1
    refine List.length_eq_zero_iff.mpr (List.eq_nil_iff_forall_not_mem.mpr fun x hx => ?_)
    exact hnone x (hblock.subset hx) (hp x hx)

end

/-! ## The scan -/

section

variable {α : Type} [Scalar α] {past : List α} {s : Streaks}

/-- The returns that are wins or losses. -/
def decided (returns : List α) : List α := returns.filter fun r => 0 < r ∨ r < 0

theorem decided_cons (r : α) (returns : List α) :
    decided (r :: returns) = decided [r] ++ decided returns :=
  List.filter_append [r] returns

theorem decided_singleton {r : α} (h : 0 < r ∨ r < 0) : decided [r] = [r] :=
  List.filter_cons_of_pos (decide_eq_true h)

theorem decided_flat {r : α} (h : ¬ (0 < r ∨ r < 0)) : decided [r] = [] :=
  List.filter_cons_of_neg (by simpa using h)

/-- Leaving out flat returns leaves out no win and no loss. -/
theorem forall_mem_decided_iff {p : α → Prop} (hp : ∀ r, p r → 0 < r ∨ r < 0)
    (returns : List α) : (∀ r ∈ decided returns, ¬ p r) ↔ ∀ r ∈ returns, ¬ p r := by
  constructor
  · intro h r hr hpr
    exact h r (List.mem_filter.mpr ⟨hr, decide_eq_true (hp r hpr)⟩) hpr
  · exact fun h r hr => h r (List.mem_filter.mp hr).1

/-- The streaks are those of a list of wins and losses. -/
structure Streaks.Counts (s : Streaks) (past : List α) : Prop where
  wins : Counted (0 < ·) past s.bestWins s.wins
  losses : Counted (· < 0) past s.bestLosses s.losses

section

variable (hsigns : ∀ r : α, 0 < r → ¬ r < 0)
include hsigns

/-- **One step of the scan** counts the return, unless it is flat. -/
theorem Streaks.Counts.next (h : s.Counts past) (r : α) :
    (s.next r).Counts (past ++ decided [r]) := by
  unfold Streaks.next
  by_cases hwin : 0 < r
  · rw [if_pos hwin, decided_singleton (.inl hwin)]
    exact ⟨h.wins.extend hwin, h.losses.interrupt (hsigns r hwin)⟩
  by_cases hloss : r < 0
  · rw [if_neg hwin, if_pos hloss, decided_singleton (.inr hloss)]
    exact ⟨h.wins.interrupt hwin, h.losses.extend hloss⟩
  · rw [if_neg hwin, if_neg hloss, decided_flat (not_or.mpr ⟨hwin, hloss⟩), List.append_nil]
    exact h

/-- **The scan** counts all returns that are not flat. -/
theorem Streaks.Counts.foldl (returns : List α) : ∀ {past : List α} {s : Streaks},
    s.Counts past → (returns.foldl Streaks.next s).Counts (past ++ decided returns) := by
  induction returns with
  | nil =>
    intro past s h
    exact (List.append_nil past).symm ▸ h
  | cons r returns ih =>
    intro past s h
    rw [List.foldl_cons, decided_cons, ← List.append_assoc]
    exact ih (h.next hsigns r)

theorem counts_streaks (returns : List α) : (streaks returns).Counts (decided returns) := by
  have hstart : Streaks.Counts ⟨0, 0, 0, 0⟩ ([] : List α) := ⟨counted_nil _, counted_nil _⟩
  exact hstart.foldl hsigns returns

end

end

/-- **Flat returns do not end a streak.** The metrics tell the longest runs of wins and of losses in
the list that is left of the returns when all zeros and NaN are left out. The empty run is always
there, and is the longest if there is no win, or no loss. -/
theorem streaks_skip_flat_returns (returns : List Float) (positions : List Position)
    (numTrades : ℕ) :
    let m := Metrics.of returns positions numTrades
    decided returns = (returns.filter fun r => ¬ (r == 0 ∨ r.isNaN)) ∧
      IsGreatest (runLengths (0 < ·) (decided returns)) m.maxConsecutiveWins ∧
      IsGreatest (runLengths (· < 0) (decided returns)) m.maxConsecutiveLosses ∧
      (m.maxConsecutiveWins = 0 ↔ ∀ r ∈ returns, ¬ 0 < r) ∧
      (m.maxConsecutiveLosses = 0 ↔ ∀ r ∈ returns, ¬ r < 0) := by
  intro m
  have hcounts := counts_streaks (fun r : Float => Doubles.not_neg_of_pos) returns
  refine ⟨?_, hcounts.wins.longest, hcounts.losses.longest, ?_, ?_⟩
  · exact List.filter_congr fun r _ => decide_eq_decide.mpr Doubles.pos_or_neg_iff
  · exact hcounts.wins.longest_eq_zero_iff.trans (forall_mem_decided_iff (fun _ => .inl) returns)
  · exact hcounts.losses.longest_eq_zero_iff.trans (forall_mem_decided_iff (fun _ => .inr) returns)

example : let s := streaks [(1 : Float), 1, 0, 0 / 0, 1, -1, -1, 1]
    (s.bestWins, s.bestLosses) = (3, 2) := by decide +kernel

end TickBacktest.Backtest
