import Mathlib.Data.List.Forall2

/-! # Outcomes

What it takes for a calculation in parts to succeed: every part does, and the next goes on from its
value. -/

namespace TickBacktest

variable {ε β γ : Type}

/-- A part that succeeds hands its value on. -/
theorem ok_bind {b : β} {f : β → Except ε γ} : Except.ok b >>= f = f b :=
  rfl

theorem bind_ok_iff {x : Except ε β} {f : β → Except ε γ} {c : γ} :
    x >>= f = .ok c ↔ ∃ b, x = .ok b ∧ f b = .ok c := by
  rcases x with e | b
  · exact ⟨fun h => (by cases h), fun ⟨_, h, _⟩ => (by cases h)⟩
  · exact ⟨fun h => ⟨b, rfl, h⟩, fun ⟨_, h, hc⟩ => (by cases h; exact hc)⟩

theorem bind_error_iff {x : Except ε β} {f : β → Except ε γ} {e : ε} :
    x >>= f = .error e ↔ x = .error e ∨ ∃ b, x = .ok b ∧ f b = .error e := by
  rcases x with e' | b
  · exact ⟨fun h => (by cases h; exact .inl rfl), fun h => h.elim (fun h => (by cases h; rfl))
      fun ⟨_, h, _⟩ => (by cases h)⟩
  · exact ⟨fun h => .inr ⟨b, rfl, h⟩, fun h => h.elim (fun h => (by cases h))
      fun ⟨_, h, he⟩ => (by cases h; exact he)⟩

/-- What is made of a value in the end does not fail. -/
theorem bind_pure_error_iff {x : Except ε β} {g : β → γ} {e : ε} :
    (x >>= fun b => pure (g b)) = .error e ↔ x = .error e := by
  rw [bind_error_iff]
  exact ⟨fun h => h.elim id fun ⟨_, _, h⟩ => (by cases h), .inl⟩

theorem pure_ok_iff {b c : β} : (pure b : Except ε β) = .ok c ↔ b = c :=
  ⟨fun h => (by cases h; rfl), fun h => h ▸ rfl⟩

theorem map_ok {b : β} {g : β → γ} : (Except.ok b : Except ε β).map g = .ok (g b) :=
  rfl

theorem mapError_ok {ζ : Type} {b : β} {g : ε → ζ} :
    (Except.ok b : Except ε β).mapError g = .ok b :=
  rfl

theorem mapError_ok_iff {ζ : Type} {x : Except ε β} {g : ε → ζ} {b : β} :
    x.mapError g = .ok b ↔ x = .ok b := by
  rcases x with e | b'
  · exact ⟨fun h => (by cases h), fun h => (by cases h)⟩
  · exact ⟨fun h => (by cases h; rfl), fun h => (by cases h; rfl)⟩

theorem mapError_error_iff {ζ : Type} {x : Except ε β} {g : ε → ζ} {z : ζ} :
    x.mapError g = .error z ↔ ∃ e, x = .error e ∧ z = g e := by
  rcases x with e | b
  · exact ⟨fun h => (by cases h; exact ⟨e, rfl, rfl⟩),
      fun ⟨_, h, hz⟩ => (by cases h; exact hz ▸ rfl)⟩
  · exact ⟨fun h => (by cases h), fun ⟨_, h, _⟩ => (by cases h)⟩

theorem isOk_iff {x : Except ε β} : x.isOk = true ↔ ∃ b, x = .ok b := by
  rcases x with e | b
  · exact ⟨fun h => (Bool.false_ne_true h).elim, fun ⟨_, h⟩ => (by cases h)⟩
  · exact ⟨fun _ => ⟨b, rfl⟩, fun _ => rfl⟩

/-- Whether a calculation succeeds with a value that has a property. -/
instance decidableExistsOk {x : Except ε β} {p : β → Prop} [DecidablePred p] :
    Decidable (∃ b, x = .ok b ∧ p b) :=
  match x with
  | .error _ => isFalse fun ⟨_, h, _⟩ => (by cases h)
  | .ok b => decidable_of_iff (p b) ⟨fun h => ⟨b, rfl, h⟩, fun ⟨_, h, hp⟩ => (by cases h; exact hp)⟩

theorem exists_of_forall₂_of_mem {R : β → γ → Prop} {xs : List β} {ys : List γ}
    (h : List.Forall₂ R xs ys) {y : γ} (hy : y ∈ ys) : ∃ x ∈ xs, R x y := by
  induction h with
  | nil => exact absurd hy List.not_mem_nil
  | cons hxy _ ih =>
    rcases List.mem_cons.mp hy with rfl | hy
    · exact ⟨_, List.mem_cons_self, hxy⟩
    · obtain ⟨x, hx, hxy⟩ := ih hy
      exact ⟨x, List.mem_cons_of_mem _ hx, hxy⟩

/-- A list is mapped successfully when each of its elements is. -/
theorem mapM_ok_iff {f : β → Except ε γ} {xs : List β} : ∀ {ys : List γ},
    xs.mapM f = .ok ys ↔ List.Forall₂ (fun x y => f x = .ok y) xs ys := by
  induction xs with
  | nil =>
    intro ys
    rw [List.mapM_nil, pure_ok_iff, List.forall₂_nil_left_iff, eq_comm]
  | cons x xs ih =>
    intro ys
    rw [List.mapM_cons, bind_ok_iff, List.forall₂_cons_left_iff]
    constructor
    · rintro ⟨y, hy, h⟩
      obtain ⟨zs, hzs, h⟩ := bind_ok_iff.mp h
      exact ⟨y, zs, hy, ih.mp hzs, (pure_ok_iff.mp h).symm⟩
    · rintro ⟨y, zs, hy, hzs, rfl⟩
      exact ⟨y, hy, bind_ok_iff.mpr ⟨zs, ih.mpr hzs, rfl⟩⟩

/-- Lists are mapped to the same outcome when their elements are, one by one. -/
theorem mapM_eq_of_forall₂ {δ : Type} {f : β → Except ε γ} {g : δ → Except ε γ} {xs : List β}
    {ys : List δ} (h : List.Forall₂ (fun x y => f x = g y) xs ys) : xs.mapM f = ys.mapM g := by
  induction h with
  | nil => rfl
  | cons hxy _ ih => rw [List.mapM_cons, List.mapM_cons, hxy, ih]

theorem mapM_congr {f g : β → Except ε γ} {xs : List β} (h : ∀ x ∈ xs, f x = g x) :
    xs.mapM f = xs.mapM g :=
  mapM_eq_of_forall₂ (List.forall₂_same.mpr h)

/-- A list is not mapped successfully only because of one of its elements. -/
theorem exists_error_of_mapM {f : β → Except ε γ} {e : ε} {xs : List β}
    (h : xs.mapM f = .error e) : ∃ x ∈ xs, f x = .error e := by
  induction xs with
  | nil => cases h
  | cons x xs ih =>
    rw [List.mapM_cons] at h
    rcases bind_error_iff.mp h with h | ⟨_, -, h⟩
    · exact ⟨x, List.mem_cons_self, h⟩
    · obtain ⟨y, hy, h⟩ := ih (bind_pure_error_iff.mp h)
      exact ⟨y, List.mem_cons_of_mem _ hy, h⟩

/-- What is made of each result may be made of the list of results. -/
theorem mapM_map {δ : Type} (f : β → Except ε γ) (g : γ → δ) (xs : List β) :
    (xs.mapM fun x => (f x).map g) = (xs.mapM f).map (List.map g) := by
  induction xs with
  | nil => rfl
  | cons x xs ih =>
    rw [List.mapM_cons, List.mapM_cons, ih]
    rcases f x with _ | y
    · rfl
    · rcases xs.mapM f with _ | ys <;> rfl

/-- A list is mapped successfully if each of its elements can be. -/
theorem mapM_ok_of_forall {f : β → Except ε γ} {xs : List β}
    (h : ∀ x ∈ xs, ∃ y, f x = .ok y) : ∃ ys, xs.mapM f = .ok ys := by
  induction xs with
  | nil => exact ⟨[], rfl⟩
  | cons x xs ih =>
    obtain ⟨y, hy⟩ := h x List.mem_cons_self
    obtain ⟨ys, hys⟩ := ih fun z hz => h z (List.mem_cons_of_mem _ hz)
    exact ⟨y :: ys, mapM_ok_iff.mpr (List.Forall₂.cons hy (mapM_ok_iff.mp hys))⟩

/-- A list is mapped to options successfully when each of its elements is. -/
theorem mapM_some_iff {f : β → Option γ} {xs : List β} : ∀ {ys : List γ},
    xs.mapM f = some ys ↔ List.Forall₂ (fun x y => f x = some y) xs ys := by
  induction xs with
  | nil =>
    intro ys
    rw [List.mapM_nil, List.forall₂_nil_left_iff, eq_comm]
    exact Option.some_inj
  | cons x xs ih =>
    intro ys
    rw [List.mapM_cons, List.forall₂_cons_left_iff]
    simp only [Option.bind_eq_bind, Option.bind_eq_some_iff, pure, Option.some.injEq, ← ih]
    constructor
    · rintro ⟨y, hy, ys', hys, rfl⟩
      exact ⟨y, ys', hy, hys, rfl⟩
    · rintro ⟨y, ys', hy, hys, rfl⟩
      exact ⟨y, hy, ys', hys, rfl⟩

end TickBacktest
