import TickBacktest.Proofs.Expression.Arguments
import TickBacktest.Proofs.Scalar.Doubles

/-! # The window of a call

The window of a call is estimated from its text, by looking at the argument that the window gets
(`callWindow?_of_fits`). Where the call binds and its window is a number in the text, or is left
out, the estimate is the window that is bound (`callWindow?_of_bound`). Which window that is does
not depend on the values of the other arguments (`exists_bindsWindow`). -/

namespace TickBacktest.Expression

open Indicator (Argument Bound Function)

/-! ## Windows -/

section

variable {x : Float} {w : ℕ}

/-- A number in a text that is a window is estimated as it is. -/
theorem literalWindow?_of_window? (h : Indicator.window? x = some w) :
    literalWindow? (.number x) = some w := by
  unfold Indicator.window? at h
  split at h
  · next hx =>
    cases h
    obtain ⟨hone, -, hle⟩ := hx
    have hfinite : x.isFinite := Doubles.isFinite_of_between Doubles.unpacks_one
      Doubles.unpacks_two_pow_64 hone hle
    exact if_pos ⟨hfinite, hone⟩
  · cases h

/-- Whole numbers up to `2 ^ 53` are windows. -/
theorem exists_window? (hone : 1 ≤ x) (hwhole : Indicator.isWhole x) (hle : x ≤ 9007199254740992) :
    ∃ w, Indicator.window? x = some w := by
  have hsize : x ≤ 18446744073709551616 := Doubles.le_of_le_of_exponent_lt hle
    Doubles.unpacks_two_pow_53 Doubles.unpacks_two_pow_64 (by decide)
  exact ⟨_, if_pos ⟨hone, hwhole, hsize⟩⟩

end

/-! ## Estimated and bound -/

/-- Functions of a number have no window. -/
theorem isWindowed_of_callWindow? {f : Function} {args : List Node}
    {keywords : List (String × Node)} {w : ℕ} (h : callWindow? f args keywords = some w) :
    f.isWindowed := by
  unfold callWindow? at h
  split at h
  · next hf => exact hf
  · cases h

section

variable {f : Function} {args : List Formula} {keywords : List (String × Formula)}
  {as : List Argument} {ks : List (String × Argument)} {b : Bound}

/-- **The estimate looks at the argument that the window gets.** -/
theorem callWindow?_of_fits (hf : f.isWindowed)
    (hfits : f.Fits args.length (keywords.map (·.1))) :
    callWindow? f (nodesOf args) (keywordNodes keywords) =
      match f.argument? args keywords "window" with
      | some e => literalWindow? e.node
      | none => f.defaultWindow := by
  have hlength : (nodesOf args).length = args.length := by rw [nodesOf_eq, List.length_map]
  have hnames : (keywordNodes keywords).map (·.1) = keywords.map (·.1) := by
    rw [keywordNodes_eq, List.map_map]
    rfl
  have hfitsNodes : f.Fits (nodesOf args).length ((keywordNodes keywords).map (·.1)) := by
    rw [hlength, hnames]
    exact hfits
  have hplace : (f.windowIndex (nodesOf args).length).bind ((nodesOf args)[·]?) =
      (((f.parameters (nodesOf args).length).map (·.name)).zip (nodesOf args)).lookup "window" := by
    rw [Indicator.lookup_zip, List.findIdx?_map]
    rfl
  have hnode : Option.Rel (fun (e : Formula) n => e.node = n)
      (f.argument? args keywords "window")
      (f.argument? (nodesOf args) (keywordNodes keywords) "window") := by
    refine Indicator.argument?_rel ?_ ?_ f "window"
    · rw [nodesOf_eq, List.forall₂_map_right_iff]
      exact List.forall₂_same.mpr fun _ _ => rfl
    · rw [keywordNodes_eq, List.forall₂_map_right_iff]
      exact List.forall₂_same.mpr fun _ _ => ⟨rfl, rfl⟩
  unfold callWindow?
  dsimp only
  rw [if_pos hf, Indicator.find?_map_snd, hplace, ← Indicator.argument?_of_fits hfitsNodes]
  generalize f.argument? args keywords "window" = r at hnode ⊢
  generalize f.argument? (nodesOf args) (keywordNodes keywords) "window" = s at hnode ⊢
  cases hnode with
  | none => rfl
  | some h =>
    dsimp only
    rw [h]

/-- The window of a call is a number in the text, or left out. -/
def LiteralWindow (f : Function) (args : List Formula) (keywords : List (String × Formula)) :
    Prop :=
  ∀ e, f.argument? args keywords "window" = some e → ∃ x, e = .number x

/-- **A window that is bound is the estimated one.** -/
theorem callWindow?_of_bound (hf : f.isWindowed) (hlit : LiteralWindow f args keywords)
    (hg : Given args keywords as ks) (hb : Indicator.bind f as ks = .ok b) {x : Float} {w : ℕ}
    (hx : b.number "window" = .ok (some x)) (hw : Indicator.window? x = some w) :
    callWindow? f (nodesOf args) (keywordNodes keywords) = some w := by
  have hfits := hg.fits_iff.mp (Indicator.bind_ok_iff_fits.mp hb).1
  rw [callWindow?_of_fits hf hfits]
  rcases he : f.argument? args keywords "window" with _ | e
  · obtain ⟨y, v, hy, hv, hdefault⟩ :=
      Indicator.number_window_of_none hb hf (hg.argument?_none he)
    rw [hx] at hy
    cases hy
    rw [hw] at hv
    exact hdefault.trans hv.symm
  · obtain ⟨y, rfl⟩ := hlit e he
    have hy := Indicator.number_window_of_scalar hb hf (hg.argument?_number he)
    rw [hx] at hy
    cases hy
    exact literalWindow?_of_window? hw

/-- The call binds, whatever the values of its arguments are, and it binds this window. -/
def BindsWindow (f : Function) (args : List Formula) (keywords : List (String × Formula))
    (w : ℕ) : Prop :=
  ∀ as ks, Given args keywords as ks → ∃ b x, Indicator.bind f as ks = .ok b ∧
    b.number "window" = .ok (some x) ∧ Indicator.window? x = some w

/-- A call binds a window that is in its text, and the one of its function if there is none. -/
theorem exists_bindsWindow (hf : f.isWindowed) (hfits : f.Fits args.length (keywords.map (·.1)))
    (hwindow : ∀ e, f.argument? args keywords "window" = some e →
      ∃ x w, e = .number x ∧ Indicator.window? x = some w) :
    ∃ w, BindsWindow f args keywords w := by
  rcases he : f.argument? args keywords "window" with _ | e
  · have hdefault : ∀ as ks, Given args keywords as ks → ∃ b x w, Indicator.bind f as ks = .ok b ∧
        b.number "window" = .ok (some x) ∧ Indicator.window? x = some w ∧
          f.defaultWindow = some w := by
      intro as ks hg
      obtain ⟨b, hb⟩ := hg.exists_bind hfits
      obtain ⟨x, w, hx, hw, hd⟩ :=
        Indicator.number_window_of_none hb hf (hg.argument?_none he)
      exact ⟨b, x, w, hb, hx, hw, hd⟩
    -- the default is that of the function, so any arguments tell it
    obtain ⟨as, ks, hg⟩ := exists_given args keywords
    obtain ⟨-, -, w, -, -, -, hd⟩ := hdefault as ks hg
    refine ⟨w, fun as ks hg => ?_⟩
    obtain ⟨b, x, w', hb, hx, hw', hd'⟩ := hdefault as ks hg
    rw [hd] at hd'
    cases hd'
    exact ⟨b, x, hb, hx, hw'⟩
  · obtain ⟨x, w, rfl, hw⟩ := hwindow e he
    refine ⟨w, fun as ks hg => ?_⟩
    obtain ⟨b, hb⟩ := hg.exists_bind hfits
    exact ⟨b, x, hb, Indicator.number_window_of_scalar hb hf (hg.argument?_number he), hw⟩

end

end TickBacktest.Expression
