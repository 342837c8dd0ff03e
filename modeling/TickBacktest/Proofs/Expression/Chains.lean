import Mathlib.Data.List.Basic
import TickBacktest.Expression.Evaluation
import TickBacktest.Proofs.Outcome

/-! # Chains of comparisons

A chain `a < b ≤ c` stands for `a < b` and `b ≤ c`. Its single links (`singleLinks`) are comparisons
of their own, of which each takes up the right operand of the one before. A chain whose first link
holds goes on as the rest of it (`eval_chain_of_holds`); any other first link is the value of the
chain, whatever follows (`eval_chain_of_not_holds`). So a chain is the conjunction of its links, and
stops at the first of them that does not hold (`chain_is_conjunction`). -/

namespace TickBacktest.Expression

open Market (History Values)

/-- The single links of a chain. -/
def singleLinks (first : Formula) : List (Comparison × Formula) → List Formula
  | [] => []
  | link :: links => .compare first [link] :: singleLinks link.2 links

/-- The expression with another formula. -/
def Compiled.withFormula (c : Compiled) (e : Formula) : Compiled := { c with formula := e }

section

variable {values : Values Float} {history : History Float} {first : Formula}
  {link : Comparison × Formula} {links : List (Comparison × Formula)}

/-! ## The first link -/

theorem one_ne_zero : (1 : Float) ≠ 0 := by decide +kernel

/-- What a single link comes to. -/
theorem eval_link_ok_iff : eval values history (.compare first [link]) = .ok (some 1) ↔
    ∃ x y, eval values history first = .ok (some x) ∧ eval values history link.2 = .ok (some y) ∧
      link.1.holds x y = true := by
  obtain ⟨op, e⟩ := link
  rw [eval]
  rcases eval values history first with fault | _ | x
  · exact ⟨fun h => (by cases h), fun ⟨_, _, h, _⟩ => (by cases h)⟩
  · exact ⟨fun h => (by cases h), fun ⟨_, _, h, _⟩ => (by cases h)⟩
  rw [ok_bind]
  dsimp only
  rw [evalLinks]
  rcases eval values history e with fault | _ | y
  · exact ⟨fun h => (by cases h), fun ⟨_, _, _, h, _⟩ => (by cases h)⟩
  · exact ⟨fun h => (by cases h), fun ⟨_, _, _, h, _⟩ => (by cases h)⟩
  rw [ok_bind]
  dsimp only
  split
  · next hholds => exact iff_of_true (by rw [evalLinks]) ⟨x, y, rfl, rfl, hholds⟩
  · next hholds =>
    constructor
    · intro h
      exact absurd (Option.some.inj (pure_ok_iff.mp h)).symm one_ne_zero
    · rintro ⟨_, _, hx, hy, h⟩
      cases hx
      cases hy
      exact absurd h hholds

/-- After a link that holds the chain goes on from its right operand. -/
theorem eval_chain_of_holds {next : Comparison × Formula}
    (h : eval values history (.compare first [link]) = .ok (some 1)) :
    eval values history (.compare first (link :: next :: links)) =
      eval values history (.compare link.2 (next :: links)) := by
  obtain ⟨x, y, hx, hy, hholds⟩ := eval_link_ok_iff.mp h
  rw [eval, eval, hx, hy, ok_bind, ok_bind]
  dsimp only
  rw [evalLinks, hy, ok_bind]
  dsimp only
  rw [if_pos hholds]

/-- A link that does not hold is the value of the chain. -/
theorem eval_chain_of_not_holds
    (h : eval values history (.compare first [link]) ≠ .ok (some 1)) :
    eval values history (.compare first (link :: links)) =
      eval values history (.compare first [link]) := by
  have hlink := mt eval_link_ok_iff.mpr h
  rw [eval, eval]
  rcases hx : eval values history first with fault | _ | x
  · rfl
  · rfl
  rw [ok_bind, ok_bind]
  dsimp only
  obtain ⟨op, e⟩ := link
  rw [evalLinks, evalLinks]
  rcases hy : eval values history e with fault | _ | y
  · rfl
  · rfl
  rw [ok_bind, ok_bind]
  dsimp only
  have hholds : ¬ op.holds x y = true := fun hholds => hlink ⟨x, y, hx, hy, hholds⟩
  rw [if_neg hholds, if_neg hholds]

/-! ## Whole chains -/

/-- A chain whose links all hold is one. -/
theorem eval_chain_of_all
    (h : ∀ l ∈ singleLinks first (link :: links), eval values history l = .ok (some 1)) :
    eval values history (.compare first (link :: links)) = .ok (some 1) := by
  induction links generalizing first link with
  | nil => exact h _ List.mem_cons_self
  | cons next links ih =>
    obtain ⟨hlink, hlinks⟩ := List.forall_mem_cons.mp h
    rw [eval_chain_of_holds hlink]
    exact ih hlinks

/-- A chain is its first link that does not hold, with any links behind it. -/
theorem eval_chain_of_first {k : ℕ} {l : Formula} (hl : (singleLinks first links)[k]? = some l)
    (hbefore : ∀ l' ∈ (singleLinks first links).take k, eval values history l' = .ok (some 1))
    (hstop : eval values history l ≠ .ok (some 1)) (others : List (Comparison × Formula)) :
    eval values history (.compare first (links.take (k + 1) ++ others)) =
      eval values history l := by
  induction k generalizing first links with
  | zero =>
    obtain _ | ⟨link, links⟩ := links
    · cases hl
    · cases hl
      exact eval_chain_of_not_holds hstop
  | succ k ih =>
    obtain _ | ⟨link, _ | ⟨next, links⟩⟩ := links
    · cases hl
    · cases hl
    · obtain ⟨hlink, hlinks⟩ := List.forall_mem_cons.mp hbefore
      have hrest := ih hl hlinks
      rw [List.take_succ_cons, List.cons_append] at hrest ⊢
      rw [List.take_succ_cons, List.cons_append, eval_chain_of_holds hlink, hrest]

theorem evalLinks_eq_zero_or_one {x y : Float}
    (h : evalLinks values history x links = .ok (some y)) : y = 0 ∨ y = 1 := by
  induction links generalizing x with
  | nil =>
    rw [evalLinks] at h
    cases h
    exact .inr rfl
  | cons link links ih =>
    obtain ⟨op, e⟩ := link
    rw [evalLinks] at h
    obtain ⟨_ | z, -, h⟩ := bind_ok_iff.mp h
    · cases h
    · dsimp only at h
      split at h
      · exact ih h
      · cases h
        exact .inl rfl

/-- The value of a comparison is finite, so it is the value of the expression. -/
theorem evaluate_compare {c : Compiled} (hc : c.formula = .compare first links) :
    c.evaluate values history = eval values history c.formula := by
  unfold Compiled.evaluate
  rcases h : eval values history c.formula with fault | _ | y
  · rfl
  · rfl
  have hfinite : y.isFinite = true := by
    rw [hc, eval] at h
    obtain ⟨_ | x, -, h⟩ := bind_ok_iff.mp h
    · cases h
    · rcases evalLinks_eq_zero_or_one h with rfl | rfl <;> decide +kernel
  rw [ok_bind, Option.filter_some, if_pos hfinite]
  rfl

theorem mem_singleLinks {l : Formula} (h : l ∈ singleLinks first links) :
    ∃ e link, l = .compare e [link] := by
  induction links generalizing first with
  | nil => cases h
  | cons link links ih =>
    rcases List.mem_cons.mp h with rfl | h
    · exact ⟨first, link, rfl⟩
    · exact ih h

/-- **A chain is the conjunction of its links, and stops at the first that does not hold.** What
stands behind that link may be anything. -/
theorem chain_is_conjunction {c : Compiled} (hc : c.formula = .compare first (link :: links))
    (values : Values Float) (history : History Float) :
    ((∀ l ∈ singleLinks first (link :: links),
        (c.withFormula l).evaluate values history = .ok (some 1)) →
      c.evaluate values history = .ok (some 1)) ∧
    ∀ k l, (singleLinks first (link :: links))[k]? = some l →
      (∀ l' ∈ (singleLinks first (link :: links)).take k,
        (c.withFormula l').evaluate values history = .ok (some 1)) →
      (c.withFormula l).evaluate values history ≠ .ok (some 1) →
        c.evaluate values history = (c.withFormula l).evaluate values history ∧
        ∀ others, (c.withFormula (.compare first ((link :: links).take (k + 1) ++ others))).evaluate
          values history = (c.withFormula l).evaluate values history := by
  have hlink : ∀ l ∈ singleLinks first (link :: links),
      (c.withFormula l).evaluate values history = eval values history l := by
    intro l hl
    obtain ⟨e, link', rfl⟩ := mem_singleLinks hl
    exact evaluate_compare rfl
  have hchain : c.evaluate values history =
      eval values history (.compare first (link :: links)) := hc ▸ evaluate_compare hc
  rw [hchain]
  constructor
  · intro h
    exact eval_chain_of_all fun l hl => (hlink l hl).symm.trans (h l hl)
  · intro k l hl hbefore hstop
    rw [hlink l (List.mem_of_getElem? hl)] at hstop ⊢
    have hall := eval_chain_of_first hl
      (fun l' hl' => (hlink l' (List.mem_of_mem_take hl')).symm.trans (hbefore l' hl')) hstop
    refine ⟨?_, fun others => (evaluate_compare rfl).trans (hall others)⟩
    have hself := hall ((link :: links).drop (k + 1))
    rwa [List.take_append_drop] at hself

end

/-- The single links of a formula that is a chain. -/
def Formula.links : Formula → List Formula
  | .compare first links => singleLinks first links
  | _ => []

theorem exists_compare_of_mem_links {e l : Formula} (h : l ∈ e.links) :
    ∃ first link links, e = .compare first (link :: links) := by
  cases e with
  | compare first links =>
    rcases links with _ | ⟨link, links⟩
    · cases h
    · exact ⟨first, link, links, rfl⟩
  | _ => cases h

/-- A middle price of 100. -/
def atHundred : Values Float := ⟨100, 1, 99.5, 100.5, 0, 0⟩

/-- The second link does not hold, so the division in the third is not seen. -/
theorem chain_ends_at_second_link : ∃ c first link links, compile "90 < mid < 95 < 1 / 0" = .ok c ∧
    c.formula = .compare first (link :: links) ∧
    c.evaluate atHundred (fun _ => none) = .ok (some 0) := by
  obtain ⟨c, hc, l, hl, hbefore, hvalue⟩ : ∃ c, compile "90 < mid < 95 < 1 / 0" = .ok c ∧
      ∃ l ∈ c.formula.links[1]?,
        (∀ l' ∈ c.formula.links.take 1,
          ∃ o, (c.withFormula l').evaluate atHundred (fun _ => none) = .ok o ∧ o = some 1) ∧
        ∃ o, (c.withFormula l).evaluate atHundred (fun _ => none) = .ok o ∧ o = some 0 := by
    decide +kernel
  obtain ⟨_, hvalue, rfl⟩ := hvalue
  obtain ⟨first, link, links, hchain⟩ := exists_compare_of_mem_links (List.mem_of_getElem? hl)
  have hstops : (.ok (some 0) : Except Fault (Option Float)) ≠ .ok (some 1) :=
    fun h => one_ne_zero (Option.some.inj (Except.ok.inj h)).symm
  have hlinks : c.formula.links = singleLinks first (link :: links) := by
    rw [hchain]
    rfl
  rw [hlinks] at hl hbefore
  have hbefore : ∀ l' ∈ (singleLinks first (link :: links)).take 1,
      (c.withFormula l').evaluate atHundred (fun _ => none) = .ok (some 1) := by
    intro l' hl'
    obtain ⟨_, hone, rfl⟩ := hbefore l' hl'
    exact hone
  have hend := (chain_is_conjunction hchain atHundred fun _ => none).2 1 l hl hbefore
    (hvalue.symm ▸ hstops)
  exact ⟨c, first, link, links, hc, hchain, hend.1.trans hvalue⟩

end TickBacktest.Expression
