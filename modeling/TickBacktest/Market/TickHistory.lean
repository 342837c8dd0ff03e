import TickBacktest.Market.SeriesBuffer
import TickBacktest.Market.Values

/-! # Tick history

The past of a run: a sliding window of the values of each variable, and the last middle price. Every
variable has a series here, if only an empty one. A history is made with all its room at once, or
not at all (`ofCapacity_of_lt`, `ofCapacity_of_le`). -/

namespace TickBacktest.Market

/-- The past values of every variable. -/
structure TickHistory (α : Type) where
  buffers : Values (SeriesBuffer α)
  lastMid : Option α

namespace TickHistory

variable {α : Type}

/-- A history of no ticks that will show the last `capacity` ones. -/
def empty (capacity : Nat) : TickHistory α :=
  let b := SeriesBuffer.empty capacity
  ⟨⟨b, b, b, b, b, b⟩, none⟩

/-- Makes a history of no ticks, with a buffer of the capacity for each variable. -/
def ofCapacity (capacity : Nat) : Except CapacityOverflow (TickHistory α) := do
  let b ← SeriesBuffer.ofCapacity capacity
  return ⟨⟨b, b, b, b, b, b⟩, none⟩

theorem ofCapacity_of_lt {capacity : Nat} (h : capacity < SeriesBuffer.capacityBound) :
    (ofCapacity capacity : Except CapacityOverflow (TickHistory α)) = .ok (empty capacity) := by
  unfold ofCapacity SeriesBuffer.ofCapacity
  rw [if_pos (SeriesBuffer.fits_iff.mpr h)]
  rfl

theorem ofCapacity_of_le {capacity : Nat} (h : SeriesBuffer.capacityBound ≤ capacity) :
    (ofCapacity capacity : Except CapacityOverflow (TickHistory α)) = .error ⟨⟩ := by
  unfold ofCapacity SeriesBuffer.ofCapacity
  rw [if_neg fun hfits => Nat.not_lt.mpr h (SeriesBuffer.fits_iff.mp hfits)]
  rfl

/-- Adds the values of a tick. -/
def record (h : TickHistory α) (vs : Values α) : TickHistory α :=
  ⟨Values.zipWith SeriesBuffer.push h.buffers vs, some vs.mid⟩

/-- The past values of a variable, oldest first. -/
def series (h : TickHistory α) (v : Variable) : List α := (h.buffers.get v).toList

/-- The history as an expression reads it. -/
def view (h : TickHistory α) : History α := fun v => some (h.series v)

/-- The number of ticks shown. -/
def size (h : TickHistory α) : Nat := (h.series .mid).length

end TickHistory

end TickBacktest.Market
