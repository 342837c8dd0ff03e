import Mathlib.Data.List.DropRight
import TickBacktest.Market.TickHistory

/-! # What a history shows

A buffer shows the last `capacity` values that were pushed (`SeriesBuffer.toList_pushAll`), whenever
it dropped the older ones. A history therefore shows of every variable the last `capacity` values
recorded (`TickHistory.series_recordAll`), and it knows the middle price of the last record. -/

namespace TickBacktest.Market

variable {α : Type}

theorem rtake_of_length_le {l : List α} {n : ℕ} (h : l.length ≤ n) : l.rtake n = l := by
  rw [List.rtake, Nat.sub_eq_zero_of_le h, List.drop_zero]

theorem rtake_min_length (l : List α) (n : ℕ) : l.rtake (min n l.length) = l.rtake n := by
  unfold List.rtake
  congr 1
  omega

/-- What is cut off the front does not matter to the end. -/
theorem rtake_rtake_append (l m : List α) (n : ℕ) :
    (l.rtake n ++ m).rtake n = (l ++ m).rtake n := by
  have hl : (l.rtake n ++ m) = (l ++ m).drop (l.length - n) := by
    rw [List.rtake, List.drop_append_of_le_length (Nat.sub_le _ _)]
  rw [hl, List.rtake, List.rtake, List.drop_drop, List.length_drop, List.length_append]
  congr 1
  omega

section

variable {xs ys : List α} {k n : ℕ}

theorem rtake_rtake (h : n ≤ k) : (xs.rtake k).rtake n = xs.rtake n := by
  unfold List.rtake
  rw [List.drop_drop, List.length_drop]
  congr 1
  omega

theorem length_rtake (xs : List α) (k : ℕ) : (xs.rtake k).length = min k xs.length := by
  unfold List.rtake
  rw [List.length_drop]
  omega

theorem rtake_congr (h : xs.rtake k = ys.rtake k) (hn : n ≤ k) : xs.rtake n = ys.rtake n := by
  rw [← rtake_rtake hn, h, rtake_rtake hn]

/-- Lists with the same last `k` values are the same, or both have as many. -/
theorem eq_or_le_of_rtake_eq (h : xs.rtake k = ys.rtake k) :
    xs = ys ∨ k ≤ xs.length ∧ k ≤ ys.length := by
  have hlen := congrArg List.length h
  rw [length_rtake, length_rtake] at hlen
  by_cases hk : k ≤ xs.length
  · exact .inr ⟨hk, by omega⟩
  · left
    rwa [rtake_of_length_le (by omega), rtake_of_length_le (by omega)] at h

end

/-! ## Buffers -/

namespace SeriesBuffer

/-- The buffer after some values, pushed one by one. -/
def pushAll (b : SeriesBuffer α) (xs : List α) : SeriesBuffer α := xs.foldl push b

@[simp] theorem toList_empty (capacity : ℕ) : (empty capacity : SeriesBuffer α).toList = [] :=
  List.drop_nil

@[simp] theorem pushAll_nil (b : SeriesBuffer α) : b.pushAll [] = b := rfl

@[simp] theorem pushAll_cons (b : SeriesBuffer α) (x : α) (xs : List α) :
    b.pushAll (x :: xs) = (b.push x).pushAll xs := rfl

theorem length_toList_le (b : SeriesBuffer α) : b.toList.length ≤ b.capacity := by
  unfold toList
  rw [List.length_drop, Array.length_toList]
  omega

theorem toList_push_rtake (b : SeriesBuffer α) (x : α) :
    (b.push x).toList = (b.toList ++ [x]).rtake b.capacity := toList_push b x

/-- **A buffer is a window**: it shows the last `capacity` of what it showed and what was pushed. -/
theorem toList_pushAll (xs : List α) :
    ∀ b : SeriesBuffer α, (b.pushAll xs).toList = (b.toList ++ xs).rtake b.capacity := by
  induction xs with
  | nil =>
    intro b
    rw [pushAll_nil, List.append_nil, rtake_of_length_le (length_toList_le b)]
  | cons x xs ih =>
    intro b
    rw [pushAll_cons, ih, capacity_push, toList_push_rtake, rtake_rtake_append, List.append_assoc,
      List.singleton_append]

end SeriesBuffer

/-! ## Histories -/

namespace TickHistory

/-- The history after some records. -/
def recordAll (h : TickHistory α) (vs : List (Values α)) : TickHistory α := vs.foldl record h

@[simp] theorem recordAll_cons (h : TickHistory α) (v : Values α) (vs : List (Values α)) :
    h.recordAll (v :: vs) = (h.record v).recordAll vs := rfl

@[simp] theorem lastMid_record (h : TickHistory α) (v : Values α) :
    (h.record v).lastMid = some v.mid := rfl

@[simp] theorem buffers_empty_get (capacity : ℕ) (v : Variable) :
    (empty capacity : TickHistory α).buffers.get v = .empty capacity := by
  cases v <;> rfl

@[simp] theorem buffers_record_get (h : TickHistory α) (vs : Values α) (v : Variable) :
    (h.record vs).buffers.get v = (h.buffers.get v).push (vs.get v) := by
  unfold record
  exact Values.get_zipWith _ _ _ _

theorem buffers_recordAll_get (vs : List (Values α)) (v : Variable) :
    ∀ h : TickHistory α,
      (h.recordAll vs).buffers.get v = (h.buffers.get v).pushAll (vs.map (·.get v)) := by
  induction vs with
  | nil => intro h; rfl
  | cons x xs ih =>
    intro h
    rw [recordAll_cons, ih, buffers_record_get, List.map_cons, SeriesBuffer.pushAll_cons]

/-- **A history shows the last `capacity` records** of every variable, oldest first. -/
theorem series_recordAll (capacity : ℕ) (vs : List (Values α)) (v : Variable) :
    ((empty capacity).recordAll vs).series v = (vs.map (·.get v)).rtake capacity := by
  unfold series
  rw [buffers_recordAll_get, buffers_empty_get, SeriesBuffer.toList_pushAll,
    SeriesBuffer.toList_empty, List.nil_append]
  rfl

end TickHistory

end TickBacktest.Market
