import Mathlib.Data.Nat.Notation
import Mathlib.Tactic.SplitIfs
import TickBacktest.Json.Reader
import TickBacktest.Json.Writer

/-! # Texts in documents

A text is written character by character, and each is read back as it is written
(`textFrom_escapedChar`): as itself, after a backslash, or by its code unit. So a whole text is
(`textFrom_textChars`). -/

namespace TickBacktest.Json

open Text (Parsed hexDigit)

/-- What is found is `a`, with `rest` after it. -/
def Yields {β : Type} {cs : List Char} (o : Option (Parsed β cs)) (a : β) (rest : List Char) :
    Prop := ∃ h, o = some ⟨a, rest, h⟩

section

variable {cs rest : List Char} {found : Parsed (Option (List Char)) cs} {c : Char}

/-- A quote ends the text. -/
theorem textFrom_quote (h : found.rest = '"' :: rest) : ∃ hr,
    textFrom found = some ⟨found.value.map fun f => String.ofList f.reverse, rest, hr⟩ := by
  have hr : rest.length < cs.length := Nat.lt_trans (Text.length_of_cons h) found.shorter
  refine ⟨hr, ?_⟩
  rw [textFrom]
  split
  · next heq => simp [h] at heq
  · next heq =>
    cases h.symm.trans heq
    rfl
  · next heq => simp [h] at heq
  · next hq _ heq => exact absurd (List.cons.inj (h.symm.trans heq)).1.symm hq

/-- A character that stands for itself. -/
theorem textFrom_plain (hq : c ≠ '"') (hb : c ≠ '\\') (hc : 32 ≤ c.toNat)
    (h : found.rest = c :: rest) :
    ∃ hr, textFrom found = textFrom ⟨found.value.map (c :: ·), rest, hr⟩ := by
  have hr : rest.length < cs.length := Nat.lt_trans (Text.length_of_cons h) found.shorter
  refine ⟨hr, ?_⟩
  rw [textFrom]
  split
  · next heq => cases h.symm.trans heq
  · next heq => exact absurd (List.cons.inj (h.symm.trans heq)).1 hq
  · next heq => exact absurd (List.cons.inj (h.symm.trans heq)).1 hb
  · next heq =>
    cases h.symm.trans heq
    exact if_neg (by omega)

/-- A backslash and a letter. -/
theorem textFrom_escape {e : Char} (he : escape? e = some c) (h : found.rest = '\\' :: e :: rest) :
    ∃ hr, textFrom found = textFrom ⟨found.value.map (c :: ·), rest, hr⟩ := by
  have hr : rest.length < cs.length := by
    have := congrArg List.length h
    have := found.shorter
    simp only [List.length_cons] at *
    omega
  have hu : unit? ('\\' :: e :: rest) = none := by
    unfold unit?
    split
    · next heq =>
      rw [(List.cons.inj (List.cons.inj heq).2).1] at he
      simp [escape?] at he
    · rfl
  refine ⟨hr, ?_⟩
  rw [textFrom]
  split
  · next heq => cases h.symm.trans heq
  · next heq => simp [h] at heq
  · next heq =>
    cases h.symm.trans heq
    split
    · next hl => cases hu.symm.trans hl
    · dsimp only
      rw [he]
  · next hb heq => exact absurd (List.cons.inj (h.symm.trans heq)).1.symm hb

/-- A backslash and a code unit that is no half of a pair. -/
theorem textFrom_unit {n : ℕ} {more : List Char} (hu : unit? ('\\' :: more) = some (n, rest))
    (hhigh : isHigh n = false) (hlow : isLow n = false) (h : found.rest = '\\' :: more) :
    ∃ hr, textFrom found = textFrom ⟨found.value.map (Char.ofNat n :: ·), rest, hr⟩ := by
  have hr : rest.length < cs.length :=
    Nat.lt_trans (length_of_unit? hu) (h ▸ found.shorter)
  refine ⟨hr, ?_⟩
  rw [textFrom]
  split
  · next heq => cases h.symm.trans heq
  · next heq => simp [h] at heq
  · next heq =>
    cases h.symm.trans heq
    split
    · next hl =>
      cases hu.symm.trans hl
      rw [if_neg (by simp [hhigh]), if_neg (by simp [hlow])]
    · next hl => cases hu.symm.trans hl
  · next hb heq => exact absurd (List.cons.inj (h.symm.trans heq)).1.symm hb

theorem hexValue?_hexDigit {d : ℕ} (h : d < 16) : hexValue? (hexDigit d) = some d := by
  have hall : ∀ d < 16, hexValue? (hexDigit d) = some d := by decide
  exact hall d h

/-- The code unit of a control character has two zeros and two digits. -/
theorem unit?_control {n : ℕ} (hn : n < 32) (rest : List Char) :
    unit? ('\\' :: 'u' :: '0' :: '0' :: hexDigit (n / 16) :: hexDigit (n % 16) :: rest) =
      some (n, rest) := by
  have hzero : hexValue? '0' = some 0 := by decide
  have hvalue : n / 16 * 16 + n % 16 = n := by omega
  simp only [unit?, hex4?, hzero, hexValue?_hexDigit (show n / 16 < 16 by omega),
    hexValue?_hexDigit (Nat.mod_lt n (by decide))]
  simp [hvalue]

/-- **A character is read back as it is written.** -/
theorem textFrom_escapedChar (h : found.rest = escapedChar c ++ rest) :
    ∃ hr, textFrom found = textFrom ⟨found.value.map (c :: ·), rest, hr⟩ := by
  unfold escapedChar at h
  split_ifs at h with hq hb hn hr ht h8 hc hctl
  any_goals
    subst c
    exact textFrom_escape rfl h
  · have hhigh : isHigh c.toNat = false := by
      unfold isHigh
      simp only [Bool.and_eq_false_iff, decide_eq_false_iff_not]
      omega
    have hlow : isLow c.toNat = false := by
      unfold isLow
      simp only [Bool.and_eq_false_iff, decide_eq_false_iff_not]
      omega
    have hread := textFrom_unit (unit?_control hctl rest) hhigh hlow h
    rwa [Char.ofNat_toNat] at hread
  · exact textFrom_plain hq hb (by omega) h

/-- The characters that are left are found after those found before. -/
theorem textFrom_flatMap (s : List Char) {acc : List Char} (hacc : found.value = some acc)
    (h : found.rest = s.flatMap escapedChar ++ '"' :: rest) :
    Yields (textFrom found) (some (String.ofList (acc.reverse ++ s))) rest := by
  induction s generalizing acc found with
  | nil =>
    obtain ⟨hr, ht⟩ := textFrom_quote h
    exact ⟨hr, by rw [ht, hacc, List.append_nil]; rfl⟩
  | cons c s ih =>
    rw [List.flatMap_cons, List.append_assoc] at h
    obtain ⟨hr, hc⟩ := textFrom_escapedChar h
    have hread := @ih ⟨found.value.map (c :: ·), _, hr⟩ (c :: acc) (by rw [hacc]; rfl) rfl
    rw [List.reverse_cons, List.append_assoc, List.singleton_append] at hread
    rw [hc]
    exact hread

/-- **A text is read back as it is written.** -/
theorem textFrom_textChars {s : String} {body : List Char}
    (h : textChars s ++ rest = '"' :: body) (hb : body.length < cs.length) :
    Yields (textFrom (⟨some [], body, hb⟩ : Parsed (Option (List Char)) cs)) (some s) rest := by
  have hbody : body = s.toList.flatMap escapedChar ++ '"' :: rest := by
    unfold textChars at h
    simp only [List.cons_append, List.append_assoc, List.nil_append, List.cons.injEq] at h
    exact h.2.symm
  have hread := @textFrom_flatMap cs rest ⟨some [], body, hb⟩ s.toList [] rfl hbody
  rwa [List.reverse_nil, List.nil_append, String.ofList_toList] at hread

end

end TickBacktest.Json
