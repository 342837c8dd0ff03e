import TickBacktest.Expression.Evaluation
import TickBacktest.Proofs.Expression.Compounds
import TickBacktest.Proofs.Scalar.NonFinite

/-! # Indeterminate operands

A part of an expression is indeterminate in two ways: it has no value, or its value is not finite.
No value makes every compound indeterminate (`Compound.eval_ne_some`). A value that is not finite is
a number as long as it stands inside an expression, and its compounds are not finite as far as the
arithmetic carries it (`Compound.Carries`, `Compound.isFinite_of_eval`): signs, sums, differences
and products do, and so do quotients and remainders of it.

What the arithmetic does not carry is lost: one divided by a product that overflows is zero
(`zero_of_overflow`). -/

namespace TickBacktest.Expression

open Market (History Values)

/-! ## Arithmetic with what is not finite -/

section

variable {x y z : Float}

theorem isFinite_flooredRemainder (h : x.isFinite = false ∨ y.isNaN = true) :
    (flooredRemainder x y).isFinite = false := by
  have hnan : (0 / 0 : Float).isFinite = false := by decide +kernel
  unfold flooredRemainder
  rw [Doubles.remainder_eq_nan h]
  dsimp only
  split
  · exact Doubles.isFinite_add (.inl hnan)
  · exact hnan

/-- **The result of an operation is not finite if its first operand is not**, or if its second one
is not, where a divisor must be a NaN. Powers are apart. -/
theorem isFinite_operate {op : Operator} (hop : op ≠ .pow) (h : operate op x y = .ok z)
    (hxy : x.isFinite = false ∨
      y.isFinite = false ∧ (op = .div ∨ op = .mod → y.isNaN = true)) : z.isFinite = false := by
  have heither : x.isFinite = false ∨ y.isFinite = false := hxy.imp_right (·.1)
  cases op <;> simp only [operate] at h
  case pow => exact absurd rfl hop
  case floorDiv => cases h
  case add => cases h; exact Doubles.isFinite_add heither
  case sub => cases h; exact Doubles.isFinite_sub heither
  case mul => cases h; exact Doubles.isFinite_mul heither
  case div =>
    split at h <;> cases h
    exact Doubles.isFinite_div (hxy.imp_right fun hy => hy.2 (.inl rfl))
  case mod =>
    split at h <;> cases h
    exact isFinite_flooredRemainder (hxy.imp_right fun hy => hy.2 (.inr rfl))

end

/-! ## Compounds -/

namespace Compound

/-- The compounds that are not finite where their part has the value `x`, which is not finite. A
divisor must be a NaN, and powers and comparisons carry nothing. -/
def Carries (x : Float) : Compound → Prop
  | negated => True
  | before op => op ≠ .pow
  | after op => op ≠ .pow ∧ (op = .div ∨ op = .mod → x.isNaN = true)
  | compared _ => False

variable {values : Values Float} {history : History Float} {e d : Formula} {v x : Float}

/-- **A part without a value leaves a compound without one.** -/
theorem eval_ne_some (c : Compound) (h : eval values history e = .ok none) :
    eval values history (c.formula e d) ≠ .ok (some v) := by
  intro hv
  cases c with
  | negated =>
    rw [formula, eval, h] at hv
    cases hv
  | before op =>
    rw [formula, eval, h, ok_bind] at hv
    obtain ⟨y, -, hv⟩ := bind_ok_iff.mp hv
    cases hv
  | after op =>
    rw [formula, eval, h] at hv
    obtain ⟨y, -, hv⟩ := bind_ok_iff.mp hv
    cases y <;> cases hv
  | compared op =>
    rw [formula, eval, h] at hv
    cases hv

/-- **A compound that carries the value of its part is not finite if the part is not.** -/
theorem isFinite_of_eval {c : Compound} (h : eval values history e = .ok (some x))
    (hx : x.isFinite = false) (hc : c.Carries x)
    (hv : eval values history (c.formula e d) = .ok (some v)) : v.isFinite = false := by
  cases c with
  | negated =>
    rw [formula, eval, h] at hv
    cases hv
    exact Doubles.isFinite_neg hx
  | before op =>
    rw [formula, eval, h, ok_bind] at hv
    obtain ⟨_ | y, -, hv⟩ := bind_ok_iff.mp hv
    · cases hv
    · obtain ⟨z, hz, hv⟩ := bind_ok_iff.mp hv
      cases hv
      exact isFinite_operate hc hz (.inl hx)
  | after op =>
    rw [formula, eval] at hv
    obtain ⟨y, -, hv⟩ := bind_ok_iff.mp hv
    rw [h, ok_bind] at hv
    rcases y with _ | y
    · cases hv
    · obtain ⟨z, hz, hv⟩ := bind_ok_iff.mp hv
      cases hv
      exact isFinite_operate hc.1 hz (.inr ⟨hx, hc.2⟩)
  | compared op => exact hc.elim

end Compound

/-! ## Texts -/

section

variable {values : Values Float} {history : History Float}

theorem Compiled.evaluate_eq_some_iff {c : Compiled} {v : Float} :
    c.evaluate values history = .ok (some v) ↔
      eval values history c.formula = .ok (some v) ∧ v.isFinite = true := by
  unfold Compiled.evaluate
  rw [bind_ok_iff]
  constructor
  · rintro ⟨o, ho, h⟩
    obtain ⟨rfl, hv⟩ := Option.filter_eq_some_iff.mp (pure_ok_iff.mp h)
    exact ⟨ho, hv⟩
  · rintro ⟨h, hv⟩
    exact ⟨some v, h, pure_ok_iff.mpr (Option.filter_eq_some_iff.mpr ⟨rfl, hv⟩)⟩

theorem Compiled.evaluate_eq_none_iff {c : Compiled} :
    c.evaluate values history = .ok none ↔
      eval values history c.formula = .ok none ∨
        ∃ x, eval values history c.formula = .ok (some x) ∧ x.isFinite = false := by
  unfold Compiled.evaluate
  rw [bind_ok_iff]
  constructor
  · rintro ⟨_ | x, ho, h⟩
    · exact .inl ho
    · have hx := Option.filter_eq_none_iff.mp (pure_ok_iff.mp h) x rfl
      exact .inr ⟨x, ho, by simpa using hx⟩
  · rintro (h | ⟨x, h, hx⟩)
    · exact ⟨none, h, rfl⟩
    · refine ⟨some x, h, pure_ok_iff.mpr (Option.filter_eq_none_iff.mpr ?_)⟩
      rintro y hy
      cases hy
      simp [hx]

/-- **What is indeterminate by itself makes a compound indeterminate**, if it has no value, or if
the compound carries its value: the compound has no finite value, whatever the other part is. -/
theorem indeterminate_propagates {a b : String} {ca : Compiled} {m : Node} (ha : compile a = .ok ca)
    (hb : parse b = .ok m) (hnone : ca.evaluate values history = .ok none) (c : Compound)
    (hcarries : ∀ x, eval values history ca.formula = .ok (some x) → c.Carries x) (v : Float) :
    evaluate (c.text a b) values history ≠ .ok (some v) := by
  intro h
  rcases hc : compile (c.text a b) with r | cc
  · rw [evaluate, hc] at h
    cases h
  · rw [evaluate, hc] at h
    obtain ⟨hv, hfinite⟩ := Compiled.evaluate_eq_some_iff.mp (mapError_ok_iff.mp h)
    obtain ⟨d, hf⟩ := c.formula_of_compile ha hb hc
    rw [hf] at hv
    rcases Compiled.evaluate_eq_none_iff.mp hnone with he | ⟨x, he, hx⟩
    · exact c.eval_ne_some he hv
    · rw [Compound.isFinite_of_eval he hx (hcarries x he) hv] at hfinite
      cases hfinite

/-- A root of a negative number has no value, and raised to a power it has none. A product that
overflows is infinite, and so is its quotient by a price. -/
theorem indeterminate_of_root_and_overflow :
    (∃ c, compile "SQRT(mid - 101)" = .ok c ∧
      c.evaluate ⟨100, 1, 99, 101, 5, 0⟩ (fun _ => none) = .ok none ∧
      ∀ v, evaluate "(SQRT(mid - 101)) ^ (mid)" ⟨100, 1, 99, 101, 5, 0⟩ (fun _ => none) ≠
        .ok (some v)) ∧
    ∃ c, compile "1e308 * 10" = .ok c ∧
      c.evaluate ⟨100, 1, 99, 101, 5, 0⟩ (fun _ => none) = .ok none ∧
      ∀ v, evaluate "(1e308 * 10) / (mid)" ⟨100, 1, 99, 101, 5, 0⟩ (fun _ => none) ≠
        .ok (some v) := by
  obtain ⟨root, hroot, _, hnone, rfl⟩ : ∃ c, compile "SQRT(mid - 101)" = .ok c ∧
      ∃ o, eval ⟨100, 1, 99, 101, 5, 0⟩ (fun _ => none) c.formula = .ok o ∧ o = none := by
    decide +kernel
  obtain ⟨product, hproduct, _, hinfinite, rfl⟩ : ∃ c, compile "1e308 * 10" = .ok c ∧
      ∃ o, c.evaluate ⟨100, 1, 99, 101, 5, 0⟩ (fun _ => none) = .ok o ∧ o = none := by
    decide +kernel
  have hindeterminate := Compiled.evaluate_eq_none_iff.mpr (.inl hnone)
  obtain ⟨mid, hmid⟩ : ∃ n, parse "mid" = .ok n := isOk_iff.mp (by decide +kernel)
  refine ⟨⟨root, hroot, hindeterminate, fun v => ?_⟩, product, hproduct, hinfinite, fun v => ?_⟩
  · refine indeterminate_propagates hroot hmid hindeterminate (.before .pow) (fun x hx => ?_) v
    rw [hnone] at hx
    cases hx
  · exact indeterminate_propagates hproduct hmid hinfinite (.before .div)
      (fun _ _ => Operator.noConfusion) v

/-- **An overflow inside an expression is lost in a quotient, a remainder or a comparison.** By
itself the product is indeterminate. One divided by it is zero, one is its own remainder, and it is
not below one. -/
theorem zero_of_overflow :
    (∃ o, evaluate "1e308 * 10" ⟨100, 1, 99, 101, 5, 0⟩ (fun _ => none) = .ok o ∧ o = none) ∧
    (∃ o, evaluate "(1) / (1e308 * 10)" ⟨100, 1, 99, 101, 5, 0⟩ (fun _ => none) = .ok o ∧
      o = some 0) ∧
    (∃ o, evaluate "(1) % (1e308 * 10)" ⟨100, 1, 99, 101, 5, 0⟩ (fun _ => none) = .ok o ∧
      o = some 1) ∧
    ∃ o, evaluate "(1e308 * 10) < (1)" ⟨100, 1, 99, 101, 5, 0⟩ (fun _ => none) = .ok o ∧
      o = some 0 := by
  decide +kernel

end

end TickBacktest.Expression
