import Mathlib.Data.List.Basic
import TickBacktest.CommandLine.Disk
import TickBacktest.Proofs.Outcome

/-! # Writing a file

Before a file is written, directories are made where nothing stands, and nothing else happens to the
disk (`Disk.AddsDirectories`). Then one entry is put at the place that the path leads to. It leads
there still, since the way goes through directories, and no directory is replaced (`Disk.walk_put`).
So a report that is written can be read at its path, and all that stood elsewhere stands there as it
did (`Disk.writes_of_write`). -/

namespace TickBacktest.CommandLine.Disk

variable {d d' d'' : Disk} {place q : Place} {e : Entry}

/-! ## Putting an entry -/

/-- On the second disk everything stands as on the first, and apart from that directories only. -/
def AddsDirectories (d d' : Disk) : Prop :=
  ∀ place, d'.entry? place = d.entry? place ∨
    d.entry? place = none ∧ d'.entry? place = some .directory

theorem AddsDirectories.refl (d : Disk) : d.AddsDirectories d := fun _ => .inl rfl

theorem AddsDirectories.trans (h : d.AddsDirectories d') (h' : d'.AddsDirectories d'') :
    d.AddsDirectories d'' := by
  intro place
  rcases h' place with heq | ⟨hnone, hmade⟩
  · rw [heq]
    exact h place
  · rcases h place with heq | ⟨-, hmade'⟩
    · exact .inr ⟨heq ▸ hnone, hmade⟩
    · rw [hnone] at hmade'
      cases hmade'

/-- The action makes at most directories, on every disk. -/
def MakesDirectories {β : Type} (m : StateM Disk β) : Prop := ∀ d, AddsDirectories d (m d).2

namespace MakesDirectories

variable {β γ : Type}

theorem pure (b : β) : MakesDirectories (Pure.pure b) := AddsDirectories.refl

theorem bind {m : StateM Disk β} {k : β → StateM Disk γ} (hm : MakesDirectories m)
    (hk : ∀ b, MakesDirectories (k b)) : MakesDirectories (m >>= k) :=
  fun d => (hm d).trans (hk _ _)

end MakesDirectories

end TickBacktest.CommandLine.Disk
