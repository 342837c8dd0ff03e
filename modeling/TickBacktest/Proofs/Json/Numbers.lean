import Mathlib.Tactic.Push
import Mathlib.Tactic.SplitIfs
import TickBacktest.Json.Reader
import TickBacktest.Json.Writer
import TickBacktest.Proofs.Expression.Numeral

/-! # Numbers in documents

A number is read the same whether it stands alone or in a document (`number?_append`): a comma or a
bracket after it is none of its parts. A whole number of 64 bits is read back from its text
(`readsBack_integer`), and no other whole number is read (`inRange_number?`). Of doubles it can only
be asked that they are read back, since they are not read with correct rounding. -/

namespace TickBacktest.Json

open Decimal
open Expression (Digits digits_natDigits isDigit_iff takeWhile_run dropWhile_run)

/-- The text ends, or goes on as it may after a value. -/
def Closed (rest : List Char) : Prop := ∀ c ∈ rest.head?, c = ',' ∨ c = ']' ∨ c = '\x7d'

theorem closed_nil : Closed [] := fun c hc => (by cases hc)

theorem closed_cons {c : Char} (h : c = ',' ∨ c = ']' ∨ c = '\x7d') (cs : List Char) :
    Closed (c :: cs) := by
  rintro d hd
  cases hd
  exact h

/-! ## Numbers in front of other text -/

section

variable {cs rest : List Char}

theorem digits_append (hrest : Closed rest) (cs : List Char) :
    digits (cs ++ rest) = ((digits cs).1, (digits cs).2 ++ rest) := by
  have hhead : ∀ c ∈ rest.head?, isDigit c = false := by
    intro c hc
    rcases hrest c hc with rfl | rfl | rfl <;> decide
  have hds : Digits (cs.takeWhile isDigit) := fun _ h => List.mem_takeWhile_imp h
  have hboth : ∀ c ∈ (cs.dropWhile isDigit ++ rest).head?, isDigit c = false := by
    intro c hc
    rcases hr : cs.dropWhile isDigit with _ | ⟨d, more⟩
    · rw [hr] at hc
      exact hhead c hc
    · rw [hr] at hc
      cases hc
      have := List.head_dropWhile_not isDigit (l := cs) (by simp [hr])
      simpa [hr] using this
  unfold digits
  dsimp only
  have key : cs ++ rest = cs.takeWhile isDigit ++ (cs.dropWhile isDigit ++ rest) := by
    rw [← List.append_assoc, List.takeWhile_append_dropWhile]
  rw [key, takeWhile_run hds hboth, dropWhile_run hds hboth]

theorem wholePart?_append (hrest : Closed rest) (cs : List Char) :
    wholePart? (cs ++ rest) = (wholePart? cs).map fun (ds, r) => (ds, r ++ rest) := by
  unfold wholePart?
  rw [digits_append hrest]
  rcases digits cs with ⟨ds, r⟩
  dsimp only
  rcases ds with _ | ⟨d, _ | ⟨e, ds⟩⟩
  · rfl
  · by_cases hd : d = '0'
    · subst hd; rfl
    · simp [hd]
  · by_cases hd : d = '0'
    · subst hd; rfl
    · simp [hd]

theorem fractionPart?_append (hrest : Closed rest) (cs : List Char) :
    fractionPart? (cs ++ rest) = (fractionPart? cs).map fun (ds, r) => (ds, r ++ rest) := by
  rcases cs with _ | ⟨c, cs⟩
  · rw [List.nil_append]
    unfold fractionPart?
    split
    · next more =>
      rcases hrest _ rfl with h | h | h <;> simp at h
    · rfl
  · by_cases hc : c = '.'
    · subst hc
      simp only [List.cons_append, fractionPart?, digits_append hrest]
      rcases digits cs with ⟨_ | ⟨d, ds⟩, r⟩ <;> rfl
    · simp [fractionPart?, hc]

theorem takeSign_append (hrest : Closed rest) (cs : List Char) :
    takeSign (cs ++ rest) = ((takeSign cs).1, (takeSign cs).2 ++ rest) := by
  rcases cs with _ | ⟨c, cs⟩
  · rw [List.nil_append]
    unfold takeSign
    split
    · rcases hrest _ rfl with h | h | h <;> simp at h
    · rcases hrest _ rfl with h | h | h <;> simp at h
    · rfl
  · by_cases hm : c = '-'
    · subst hm; rfl
    · by_cases hp : c = '+'
      · subst hp; rfl
      · simp [takeSign, hm, hp]

theorem exponentPart?_append (hrest : Closed rest) (cs : List Char) :
    exponentPart? (cs ++ rest) = (exponentPart? cs).map fun (e, r) => (e, r ++ rest) := by
  rcases cs with _ | ⟨c, cs⟩
  · rw [List.nil_append]
    unfold exponentPart?
    split
    · next c more =>
      have hc : ¬ (c = 'e' ∨ c = 'E') := by
        rcases hrest c rfl with rfl | rfl | rfl <;> decide
      rw [if_neg hc]
      rfl
    · rfl
  · simp only [List.cons_append, exponentPart?]
    by_cases hc : c = 'e' ∨ c = 'E'
    · rw [if_pos hc, if_pos hc, takeSign_append hrest]
      dsimp only
      rw [digits_append hrest]
      rcases digits (takeSign cs).2 with ⟨_ | ⟨d, ds⟩, r⟩ <;> rfl
    · rw [if_neg hc, if_neg hc]
      rfl

/-- The number whose digits are at the front of a text, after its sign. -/
def unsigned? (negative : Bool) (body : List Char) : Option (Option Number × List Char) := do
  let (whole, rest) ← wholePart? body
  let (fraction, rest) ← fractionPart? rest
  let (exponent, rest) ← exponentPart? rest
  return (NumberText.number ⟨negative, whole, fraction, exponent⟩, rest)

theorem number?_minus (cs : List Char) : number? ('-' :: cs) = unsigned? true cs := rfl

theorem number?_of_head (h : ∀ c ∈ cs.head?, c ≠ '-') : number? cs = unsigned? false cs := by
  unfold number?
  split
  next negative body heq =>
  split at heq
  · exact absurd rfl (h _ rfl)
  · cases heq
    rfl

theorem unsigned?_append (hrest : Closed rest) (negative : Bool) (cs : List Char) :
    unsigned? negative (cs ++ rest) = (unsigned? negative cs).map fun (n, r) => (n, r ++ rest) := by
  unfold unsigned?
  rw [wholePart?_append hrest]
  rcases wholePart? cs with _ | ⟨whole, r⟩
  · rfl
  simp only [Option.map_some, Option.bind_eq_bind, Option.bind_some]
  rw [fractionPart?_append hrest]
  rcases fractionPart? r with _ | ⟨fraction, r⟩
  · rfl
  simp only [Option.map_some, Option.bind_some]
  rw [exponentPart?_append hrest]
  rcases exponentPart? r with _ | ⟨exponent, r⟩ <;> rfl

/-- **What follows a number after a comma or a bracket does not change how it is read.** -/
theorem number?_append (hrest : Closed rest) (cs : List Char) :
    number? (cs ++ rest) = (number? cs).map fun (n, r) => (n, r ++ rest) := by
  rcases cs with _ | ⟨c, cs⟩
  · have hhead : ∀ c ∈ rest.head?, c ≠ '-' := by
      intro c hc
      rcases hrest c hc with rfl | rfl | rfl <;> decide
    rw [List.nil_append, number?_of_head hhead]
    exact unsigned?_append hrest false []
  · by_cases hc : c = '-'
    · subst hc
      exact unsigned?_append hrest true cs
    · have hhead : ∀ r : List Char, ∀ d ∈ (c :: r).head?, d ≠ '-' := by
        rintro r d hd
        cases hd
        exact hc
      rw [List.cons_append, number?_of_head (hhead _), number?_of_head (hhead _)]
      exact unsigned?_append hrest false (c :: cs)

end

/-! ## Whole numbers -/

theorem eq_zero_of_natDigits {n : ℕ} {ds : List Char} (h : natDigits n = '0' :: ds) : n = 0 := by
  unfold natDigits at h
  induction n using Nat.strong_induction_on generalizing ds with
  | _ n ih =>
    by_cases hn : n < 10
    · rw [Nat.toDigits_of_lt_base hn] at h
      have hzero : ∀ m < 10, Nat.digitChar m = '0' → m = 0 := by decide
      exact hzero n hn (List.cons.inj h).1
    · rw [Nat.toDigits_of_base_le (by decide) (by omega)] at h
      rcases hq : Nat.toDigits 10 (n / 10) with _ | ⟨d, more⟩
      · exact absurd hq Nat.toDigits_ne_nil
      · rw [hq, List.cons_append] at h
        rw [(List.cons.inj h).1] at hq
        have := ih (n / 10) (by omega) hq
        omega

theorem digits_of_run {ds : List Char} (h : Digits ds) : digits ds = (ds, []) := by
  have htake := @takeWhile_run ds [] _ h (fun c hc => (by cases hc))
  have hdrop := @dropWhile_run ds [] _ h (fun c hc => (by cases hc))
  rw [List.append_nil] at htake hdrop
  unfold digits
  rw [htake, hdrop]

theorem wholePart?_natDigits (n : ℕ) : wholePart? (natDigits n) = some (natDigits n, []) := by
  have hds := digits_of_run (digits_natDigits n)
  unfold wholePart?
  rw [hds]
  split
  · next heq => exact absurd (Prod.mk.inj heq).1 Nat.toDigits_ne_nil
  · next heq => rw [(Prod.mk.inj heq).1, (Prod.mk.inj heq).2]
  · next heq =>
    have hzero := eq_zero_of_natDigits (Prod.mk.inj heq).1
    rw [hzero] at heq
    exact absurd (congrArg (List.length ∘ Prod.fst) heq) (by simp [natDigits])
  · next heq => rw [(Prod.mk.inj heq).1, (Prod.mk.inj heq).2]

theorem le_foldl_digits (ds : List Char) (s : ℕ) :
    s ≤ ds.foldl (fun n c => 10 * n + digitValue c) s := by
  induction ds generalizing s with
  | nil => exact le_rfl
  | cons d ds ih =>
    have := ih (10 * s + digitValue d)
    rw [List.foldl_cons]
    omega

theorem collect_of_le {ds : List Char} {s : ℕ}
    (h : ds.foldl (fun n c => 10 * n + digitValue c) s ≤ maxSignificand) :
    collect s ds = (ds.foldl (fun n c => 10 * n + digitValue c) s, 0) := by
  induction ds generalizing s with
  | nil => rfl
  | cons d ds ih =>
    rw [List.foldl_cons] at h ⊢
    have := le_foldl_digits ds (10 * s + digitValue d)
    unfold collect
    rw [if_pos (by omega)]
    exact ih h

theorem digitsValue_natDigits (n : ℕ) : digitsValue (natDigits n) = n := by
  have h := @Nat.ofDigitChars_ten_toDigits n
  rw [Nat.ofDigitChars_eq_foldl] at h
  exact h

theorem collect_natDigits {n : ℕ} (h : n ≤ maxSignificand) : collect 0 (natDigits n) = (n, 0) := by
  have hv := digitsValue_natDigits n
  unfold digitsValue at hv
  rw [collect_of_le (by rw [hv]; exact h), hv]

theorem unsigned?_natDigits {negative : Bool} (n : ℕ) :
    unsigned? negative (natDigits n) =
      some (NumberText.number ⟨negative, natDigits n, [], none⟩, []) := by
  unfold unsigned?
  rw [wholePart?_natDigits]
  rfl

/-- A number that a document can hold as what it is: a whole number of 64 bits, or a double. -/
def Number.InRange : Number → Prop
  | .integer n => -2 ^ 63 ≤ n ∧ n < 2 ^ 64
  | .float _ => True

/-- The number is read back from its text. -/
def Number.ReadsBack (n : Number) : Prop := number? n.text = some (some n, [])

deriving instance DecidableEq for Number

instance (n : Number) : Decidable n.ReadsBack := inferInstanceAs (Decidable (_ = _))

example : (Number.float 30.5).ReadsBack := by decide +kernel

-- The significand and the power of ten are rounded each, and then their quotient.
example : ¬ (Number.float 0.013000000000000001).ReadsBack := by decide +kernel

/-- A whole number as it is written is read as itself, a negative one after its sign. -/
theorem number_natDigits {n : ℕ} {negative : Bool} (h : n ≤ maxSignificand)
    (hneg : negative = true → 0 < n ∧ n ≤ 2 ^ 63) :
    NumberText.number ⟨negative, natDigits n, [], none⟩ =
      some (.integer (if negative then -(n : ℤ) else n)) := by
  unfold NumberText.number
  dsimp only
  rw [collect_natDigits h]
  cases negative with
  | false => rfl
  | true =>
    have hbounds : 0 < n ∧ n ≤ Nat.pow 2 63 := hneg rfl
    simp only [Option.isNone_none, and_self, if_true, Bool.not_true, Bool.false_eq_true, if_false]
    rw [if_pos hbounds]

/-- **A whole number of 64 bits is read back.** -/
theorem readsBack_integer {n : ℤ} (h : (Number.integer n).InRange) :
    (Number.integer n).ReadsBack := by
  obtain ⟨hlo, hhi⟩ := h
  have hmax : maxSignificand = 2 ^ 64 - 1 := by decide
  change number? (signChars (n < 0) ++ natDigits n.natAbs) = _
  unfold signChars
  by_cases hn : n < 0
  · have hvalue := @number_natDigits n.natAbs true (by omega) (by omega)
    have habs : -(n.natAbs : ℤ) = n := by omega
    rw [if_pos (decide_eq_true hn), List.singleton_append, number?_minus, unsigned?_natDigits,
      hvalue, if_pos rfl, habs]
  · have hvalue := @number_natDigits n.natAbs false (by omega) (by simp)
    have habs : (n.natAbs : ℤ) = n := by omega
    have hhead : ∀ c ∈ (natDigits n.natAbs).head?, c ≠ '-' := by
      rintro c hc rfl
      exact absurd (digits_natDigits _ _ (List.mem_of_mem_head? hc)) (by decide)
    rw [if_neg (by simpa using hn), List.nil_append, number?_of_head hhead, unsigned?_natDigits,
      hvalue, if_neg (by decide), habs]

theorem collect_le {s : ℕ} (hs : s ≤ maxSignificand) (ds : List Char) :
    (collect s ds).1 ≤ maxSignificand := by
  induction ds generalizing s with
  | nil => exact hs
  | cons d ds ih =>
    unfold collect
    dsimp only
    split_ifs with h
    · exact ih h
    · exact hs

/-- A whole number that is read has 64 bits. -/
theorem inRange_number {t : NumberText} {n : Number} (h : t.number = some n) : n.InRange := by
  have hle := collect_le (Nat.zero_le _) t.whole
  have hmax : maxSignificand = 2 ^ 64 - 1 := by decide
  have hpow : Nat.pow 2 63 = 2 ^ 63 := rfl
  unfold NumberText.number at h
  dsimp only at h
  split_ifs at h with h1 h2 h3
  · cases h
    constructor <;> omega
  · cases h
    constructor <;> omega
  · cases h
    trivial
  all_goals
    obtain ⟨x, -, rfl⟩ := Option.map_eq_some_iff.mp h
    trivial

theorem inRange_number? {cs rest : List Char} {n : Number} (h : number? cs = some (some n, rest)) :
    n.InRange := by
  have key : ∀ {negative : Bool} {cs : List Char}, unsigned? negative cs = some (some n, rest) →
      n.InRange := by
    intro negative cs h
    unfold unsigned? at h
    simp only [Option.bind_eq_bind, Option.bind_eq_some_iff, Prod.exists, pure, Option.some.injEq,
      Prod.mk.injEq] at h
    obtain ⟨w, r1, -, f, r2, -, e, r3, -, h, -⟩ := h
    exact inRange_number h
  by_cases hc : ∀ c ∈ cs.head?, c ≠ '-'
  · rw [number?_of_head hc] at h
    exact key h
  · push Not at hc
    obtain ⟨c, hc, rfl⟩ := hc
    obtain ⟨more, rfl⟩ := List.head?_eq_some_iff.mp hc
    exact key h

/-- A number starts with a digit or a sign. -/
theorem head_of_number? {cs rest : List Char} {n : Option Number}
    (h : number? cs = some (n, rest)) :
    ∃ c more, cs = c :: more ∧ (c = '-' ∨ isDigit c = true) := by
  rcases cs with _ | ⟨c, more⟩
  · cases h
  refine ⟨c, more, rfl, ?_⟩
  by_contra hc
  push Not at hc
  have hhead : ∀ d ∈ (c :: more).head?, d ≠ '-' := by
    rintro d hd
    cases hd
    exact hc.1
  have hdigits : digits (c :: more) = ([], c :: more) := by
    unfold digits
    rw [List.takeWhile_cons_of_neg hc.2, List.dropWhile_cons_of_neg hc.2]
  rw [number?_of_head hhead] at h
  unfold unsigned? wholePart? at h
  rw [hdigits] at h
  cases h

end TickBacktest.Json
