import TickBacktest.Proofs.Expression.Sandbox

/-! # Forbidden words and where they can stand

The forbidden words are looked for in the lower case of a whole text, and lower case is not taken
letter by letter: a capital sigma becomes one of two letters, depending on what stands around it.
Neither of the two is part of a forbidden word, so the words can be looked for letter by letter all
the same (`forbiddenWord?_eq_none_iff_clean`). They consist of letters and underscores, so none of
them reaches over a character that is neither (`clean_append`). -/

namespace TickBacktest.Expression

open Text

/-- The character with the two small sigmas taken for one. -/
def oneSigma (c : Char) : Char := if c = 'ς' then 'σ' else c

/-- The lower case of a character on its own, with the two small sigmas taken for one. -/
def lowered (c : Char) : List Char :=
  if c = 'Σ' then ['σ'] else if c = 'İ' then ['i', '\u0307'] else [oneSigma (lowerLetter c)]

/-- No forbidden word occurs in the lower case of the characters. -/
def Clean (cs : List Char) : Prop := ∀ w ∈ forbidden, ¬ w.toList <:+: cs.flatMap lowered

theorem map_lowerFrom (before cs : List Char) :
    (lowerFrom before cs).map oneSigma = cs.flatMap lowered := by
  induction cs generalizing before with
  | nil => rfl
  | cons c cs ih =>
    rw [lowerFrom, List.map_append, ih, List.flatMap_cons]
    congr 1
    unfold lowered
    -- only the lower case of a capital sigma depends on what stands around it
    by_cases hsigma : c = 'Σ'
    · rw [if_pos hsigma, if_pos hsigma]
      split <;> decide
    · rw [if_neg hsigma, if_neg hsigma]
      split
      · decide
      · rfl

/-- A word without a sigma occurs in a text if it occurs when the sigmas are taken for one. -/
theorem infix_map_oneSigma {w cs : List Char} (hw : ∀ c ∈ w, c ≠ 'σ' ∧ c ≠ 'ς') :
    w <:+: cs.map oneSigma ↔ w <:+: cs := by
  have hself : ∀ {v : List Char}, (∀ c ∈ v, c ≠ 'ς') → v.map oneSigma = v := by
    intro v hv
    conv_rhs => rw [← List.map_id v]
    exact List.map_congr_left fun c hc => if_neg (hv c hc)
  constructor
  · intro h
    obtain ⟨v, hv, rfl⟩ := List.infix_map_iff.mp h
    have hsigma : ∀ c ∈ v, c ≠ 'ς' := by
      rintro c hc rfl
      exact (hw _ (List.mem_map_of_mem hc)).1 rfl
    rw [hself hsigma]
    exact hv
  · intro h
    rw [← hself fun c hc => (hw c hc).2]
    exact h.map oneSigma

theorem forbidden_letters : ∀ w ∈ forbidden, w.toList ≠ [] ∧
    ∀ c ∈ w.toList, c.isLower = true ∨ c = '_' := by
  have hne : ∀ w ∈ forbidden, w.toList ≠ [] := by decide
  have hletters : ∀ c ∈ forbidden.flatMap String.toList, c.isLower = true ∨ c = '_' :=
    forall_mem_of_all (by decide +kernel)
  exact fun w hw => ⟨hne w hw, fun c hc => hletters c (List.mem_flatMap.mpr ⟨w, hw, hc⟩)⟩

/-- **A text has no forbidden word** if its characters have none, each taken to lower case on its
own. -/
theorem forbiddenWord?_eq_none_iff_clean {text : String} :
    forbiddenWord? text = none ↔ Clean text.toList := by
  rw [forbiddenWord?_eq_none_iff]
  refine forall₂_congr fun w hw => not_congr ?_
  have hsigma : ∀ c ∈ w.toList, c ≠ 'σ' ∧ c ≠ 'ς' := by
    intro c hc
    constructor <;> rintro rfl <;> exact absurd ((forbidden_letters w hw).2 _ hc) (by decide)
  rw [lower, String.toList_ofList, ← infix_map_oneSigma hsigma, map_lowerFrom]

/-! ## Characters between words -/

/-- A character that is in no forbidden word and has no case. -/
def Apart (c : Char) : Prop := lowered c = [c] ∧ c.isLower = false ∧ c ≠ '_'

instance (c : Char) : Decidable (Apart c) :=
  inferInstanceAs (Decidable (lowered c = [c] ∧ c.isLower = false ∧ c ≠ '_'))

theorem not_mem_of_apart {w : String} (hw : w ∈ forbidden) {c : Char} (hc : Apart c) :
    c ∉ w.toList := by
  intro hmem
  rcases (forbidden_letters w hw).2 c hmem with h | h
  · rw [hc.2.1] at h
    cases h
  · exact hc.2.2 h

/-- A word does not reach over a character that is not in it. -/
theorem infix_append_cons {w a b : List Char} {c : Char} (hc : c ∉ w) (h : w <:+: a ++ c :: b) :
    w <:+: a ∨ w <:+: b := by
  have hfront : ∀ {v : List Char}, c ∉ v → v <+: c :: b → v = [] := by
    intro v hv hvb
    rcases v with _ | ⟨d, v⟩
    · rfl
    · rw [List.cons_prefix_cons] at hvb
      exact absurd (hvb.1 ▸ List.mem_cons_self) hv
  rcases List.infix_append_iff.mp h with h | h | ⟨u, v, rfl, hu, hv⟩
  · exact .inl h
  · rcases List.infix_cons_iff.mp h with h | h
    · rw [hfront hc h]
      exact .inl List.nil_infix
    · exact .inr h
  · rw [hfront (fun hmem => hc (List.mem_append_right u hmem)) hv, List.append_nil]
    exact .inl hu.isInfix

theorem clean_nil : Clean [] := by
  intro w hw h
  exact (forbidden_letters w hw).1 (List.eq_nil_of_infix_nil h)

theorem clean_append {a b : List Char} {c : Char} (ha : Clean a) (hc : Apart c) (hb : Clean b) :
    Clean (a ++ c :: b) := by
  intro w hw h
  rw [List.flatMap_append, List.flatMap_cons, hc.1, List.singleton_append] at h
  exact (infix_append_cons (not_mem_of_apart hw hc) h).elim (ha w hw) (hb w hw)

theorem clean_cons {b : List Char} {c : Char} (hc : Apart c) (hb : Clean b) : Clean (c :: b) :=
  clean_append clean_nil hc hb

theorem clean_append_of_apart {a b : List Char} (ha : ∀ c ∈ a, Apart c) (hb : Clean b) :
    Clean (a ++ b) := by
  induction a with
  | nil => exact hb
  | cons c a ih =>
    exact clean_cons (ha c List.mem_cons_self) (ih fun d hd => ha d (List.mem_cons_of_mem _ hd))

theorem clean_snoc {a : List Char} {c : Char} (ha : Clean a) (hc : Apart c) : Clean (a ++ [c]) :=
  clean_append ha hc clean_nil

end TickBacktest.Expression
