import Mathlib.Data.List.TakeWhile
import Mathlib.Tactic.IntervalCases
import Mathlib.Tactic.Push
import TickBacktest.Decimal.Plain
import TickBacktest.Expression.Token

/-! # Numbers as they are written

Digits with at most one point among them (`Mantissa`) and perhaps an exponent (`Exponent`). What
`number` takes off the front of a text is written so, with the value that it is read with
(`number_spec`), and no number that stands there is longer (`length_number_le`). -/

namespace TickBacktest.Expression

open Decimal Text

/-! ## The form of a number -/

/-- A run of digits. -/
def Digits (ds : List Char) : Prop := ∀ c ∈ ds, isDigit c = true

/-- Digits with at most one point among them, and at least one digit. -/
inductive Mantissa : List Char → Prop where
  | whole {ds : List Char} : Digits ds → ds ≠ [] → Mantissa ds
  | point {ds fs : List Char} : Digits ds → Digits fs → ds ++ fs ≠ [] →
      Mantissa (ds ++ '.' :: fs)

/-- Nothing, or an `e` in either case, perhaps a sign, and at least one digit. -/
inductive Exponent : List Char → Prop where
  | none : Exponent []
  | some {e : Char} {sign ds : List Char} : e = 'e' ∨ e = 'E' →
      sign = [] ∨ sign = ['+'] ∨ sign = ['-'] → Digits ds → ds ≠ [] → Exponent (e :: (sign ++ ds))

/-! ## Runs of digits -/

theorem isDigit_iff {c : Char} : isDigit c = true ↔ 48 ≤ c.toNat ∧ c.toNat ≤ 57 := by
  unfold isDigit
  rw [Bool.and_eq_true, decide_eq_true_eq, decide_eq_true_eq]
  rfl

/-- What holds of the ten digits holds of every digit. -/
theorem of_isDigit {p : Char → Prop} [DecidablePred p]
    (h : ['0', '1', '2', '3', '4', '5', '6', '7', '8', '9'].all (fun d => decide (p d)) = true)
    {c : Char} (hc : isDigit c = true) : p c := by
  refine forall_mem_of_all h c ?_
  obtain ⟨h1, h2⟩ := isDigit_iff.mp hc
  rw [← Char.ofNat_toNat c]
  interval_cases c.toNat <;> decide

theorem toLower_digit {c : Char} (h : isDigit c = true) : c.toLower = c :=
  of_isDigit (p := fun d => d.toLower = d) (by decide) h

section

variable {ds rest : List Char}

/-- A run of characters in front of another one is taken as a whole. -/
theorem takeWhile_run {p : Char → Bool} (h : ∀ c ∈ ds, p c = true)
    (hrest : ∀ c ∈ rest.head?, p c = false) : (ds ++ rest).takeWhile p = ds := by
  rw [List.takeWhile_append_of_pos h]
  rcases rest with _ | ⟨c, cs⟩
  · exact List.append_nil ds
  · rw [List.takeWhile_cons_of_neg (by simp [hrest c rfl]), List.append_nil]

theorem dropWhile_run {p : Char → Bool} (h : ∀ c ∈ ds, p c = true)
    (hrest : ∀ c ∈ rest.head?, p c = false) : (ds ++ rest).dropWhile p = rest := by
  rw [List.dropWhile_append_of_pos h]
  rcases rest with _ | ⟨c, cs⟩
  · rfl
  · rw [List.dropWhile_cons_of_neg (by simp [hrest c rfl])]

theorem digits_takeWhile (cs : List Char) : Digits (cs.takeWhile isDigit) :=
  fun _ h => List.mem_takeWhile_imp h

theorem natural?_digits (h : Digits ds) (hne : ds ≠ []) : natural? ds = some (digitsValue ds) := by
  unfold natural?
  rw [if_neg (by simpa using hne), if_pos (List.all_eq_true.mpr h)]

/-- A sign in front of digits is taken. -/
theorem takeSign_append {sign : List Char} (hsign : sign = [] ∨ sign = ['+'] ∨ sign = ['-'])
    (hds : Digits ds) (hne : ds ≠ []) (rest : List Char) :
    takeSign (sign ++ ds ++ rest) = (decide (sign = ['-']), ds ++ rest) := by
  obtain ⟨d, ds, rfl⟩ := List.exists_cons_of_ne_nil hne
  have hd := hds d List.mem_cons_self
  rcases hsign with rfl | rfl | rfl
  · rw [List.nil_append, List.cons_append]
    unfold takeSign
    split
    · next h =>
      cases h
      exact absurd hd (by decide)
    · next h =>
      cases h
      exact absurd hd (by decide)
    · rfl
  · rfl
  · rfl

/-- Only a sign is taken. -/
theorem takeSign_spec (cs : List Char) : ∃ sign, (sign = [] ∨ sign = ['+'] ∨ sign = ['-']) ∧
    cs = sign ++ (takeSign cs).2 ∧ (takeSign cs).1 = decide (sign = ['-']) := by
  unfold takeSign
  split
  · exact ⟨['-'], .inr (.inr rfl), rfl, rfl⟩
  · exact ⟨['+'], .inr (.inl rfl), rfl, rfl⟩
  · exact ⟨[], .inl rfl, rfl, rfl⟩

/-- The value of an exponent after its `e`. -/
theorem exponent?_append {sign : List Char} (hsign : sign = [] ∨ sign = ['+'] ∨ sign = ['-'])
    (hds : Digits ds) (hne : ds ≠ []) : exponent? (sign ++ ds) =
      some (if sign = ['-'] then -Int.ofNat (digitsValue ds) else Int.ofNat (digitsValue ds)) := by
  have h := takeSign_append hsign hds hne []
  rw [List.append_nil, List.append_nil] at h
  unfold exponent?
  rw [h]
  dsimp only
  rw [natural?_digits hds hne]
  simp only [Option.map_some, decide_eq_true_eq]

/-- What is taken as an exponent is one, or nothing, and has the value it is read with. -/
theorem exponentPart_spec (cs : List Char) : exponentPart cs = (0, cs) ∨
    ∃ e w v, (e = 'e' ∨ e = 'E') ∧ Exponent (e :: w) ∧ exponent? w = some v ∧
      cs = e :: w ++ (exponentPart cs).2 ∧ (exponentPart cs).1 = v := by
  rcases cs with _ | ⟨e, more⟩
  · exact .inl rfl
  unfold exponentPart
  dsimp only
  by_cases he : e = 'e' ∨ e = 'E'
  · rw [if_pos he]
    obtain ⟨sign, hsign, hmore, hnegative⟩ := takeSign_spec more
    generalize (takeSign more).2 = ds at *
    rw [hnegative]
    by_cases hne : ds.takeWhile isDigit = []
    · rw [if_pos (by rw [hne]; rfl)]
      exact .inl rfl
    · rw [if_neg (by simpa using hne)]
      have hdigits := digits_takeWhile ds
      refine .inr ⟨e, sign ++ ds.takeWhile isDigit, _, he, .some he hsign hdigits hne,
        exponent?_append hsign hdigits hne, ?_, ?_⟩
      · rw [List.cons_append, List.append_assoc, List.takeWhile_append_dropWhile, ← hmore]
      · simp only [decide_eq_true_eq]
  · rw [if_neg he]
    exact .inl rfl

/-- An exponent is taken, and any digits after it. -/
theorem exponentPart_exponent {w : List Char} (h : Exponent w) (hne : w ≠ []) (rest : List Char) :
    (exponentPart (w ++ rest)).2 = rest.dropWhile isDigit := by
  obtain _ | @⟨e, sign, ds, he, hsign, hds, hdne⟩ := h
  · exact absurd rfl hne
  · rw [List.cons_append]
    unfold exponentPart
    dsimp only
    rw [if_pos he, takeSign_append hsign hds hdne, if_neg]
    · exact List.dropWhile_append_of_pos hds
    · rw [List.takeWhile_append_of_pos hds]
      simp [hdne]

/-- What may follow the digits and the point of a number: no further digit and no point. -/
def Unmantissa (cs : List Char) : Prop := ∀ c ∈ cs.head?, isDigit c = false ∧ c ≠ '.'

theorem unmantissa_exponent {w : List Char} (h : Exponent w) (hne : w ≠ []) (rest : List Char) :
    Unmantissa (w ++ rest) := by
  obtain _ | ⟨he, -, -, -⟩ := h
  · exact absurd rfl hne
  · intro c hc
    cases hc
    rcases he with rfl | rfl <;> exact ⟨by decide, by decide⟩

/-- The parts of a number without a point. -/
theorem parts_whole (hds : Digits ds) (hrest : Unmantissa rest) :
    (ds ++ rest).takeWhile isDigit = ds ∧
      fractionPart ((ds ++ rest).dropWhile isDigit) = ([], rest) := by
  refine ⟨takeWhile_run hds fun c hc => (hrest c hc).1, ?_⟩
  rw [dropWhile_run hds fun c hc => (hrest c hc).1]
  unfold fractionPart
  split
  · exact absurd rfl (hrest '.' rfl).2
  · rfl

/-- The parts of a number with a point. -/
theorem parts_point {fs : List Char} (hds : Digits ds) (hfs : Digits fs) (hrest : Unmantissa rest) :
    (ds ++ '.' :: fs ++ rest).takeWhile isDigit = ds ∧
      fractionPart ((ds ++ '.' :: fs ++ rest).dropWhile isDigit) = (fs, rest) := by
  have hpoint : ∀ c ∈ ('.' :: (fs ++ rest)).head?, isDigit c = false := by
    intro c hc
    cases hc
    decide
  rw [List.append_assoc, List.cons_append]
  refine ⟨takeWhile_run hds hpoint, ?_⟩
  rw [dropWhile_run hds hpoint, fractionPart, takeWhile_run hfs fun c hc => (hrest c hc).1,
    dropWhile_run hfs fun c hc => (hrest c hc).1]

/-- Something is taken where a number starts. -/
theorem parts_ne_nil {cs : List Char} (h : startsNumber cs = true) :
    cs.takeWhile isDigit ++ (fractionPart (cs.dropWhile isDigit)).1 ≠ [] := by
  unfold startsNumber at h
  split at h
  · rw [List.takeWhile_cons_of_neg (by decide), List.dropWhile_cons_of_neg (by decide),
      fractionPart, List.takeWhile_cons_of_pos h]
    exact List.cons_ne_nil _ _
  · rw [List.takeWhile_cons_of_pos h]
    exact List.cons_ne_nil _ _
  · cases h

/-- The digits and the point that are taken from the front of a number. -/
theorem exists_mantissa {cs : List Char} (h : startsNumber cs = true) :
    ∃ m, Mantissa m ∧ cs = m ++ (fractionPart (cs.dropWhile isDigit)).2 ∧
      ∀ rest, Unmantissa rest → (m ++ rest).takeWhile isDigit = cs.takeWhile isDigit ∧
        fractionPart ((m ++ rest).dropWhile isDigit) =
          ((fractionPart (cs.dropWhile isDigit)).1, rest) := by
  have hne := parts_ne_nil h
  have hds := digits_takeWhile cs
  have hcs : cs.takeWhile isDigit ++ cs.dropWhile isDigit = cs := List.takeWhile_append_dropWhile
  unfold fractionPart at hne
  by_cases hpoint : ∃ more, cs.dropWhile isDigit = '.' :: more
  · obtain ⟨more, hmore⟩ := hpoint
    have hfs := digits_takeWhile more
    rw [hmore] at hne ⊢
    refine ⟨cs.takeWhile isDigit ++ '.' :: more.takeWhile isDigit, .point hds hfs hne, ?_,
      fun rest hrest => parts_point hds hfs hrest⟩
    rw [fractionPart, List.append_assoc, List.cons_append, List.takeWhile_append_dropWhile,
      ← hmore, hcs]
  · have hfraction : fractionPart (cs.dropWhile isDigit) = ([], cs.dropWhile isDigit) := by
      unfold fractionPart
      split
      · next more hmore => exact absurd ⟨more, hmore⟩ hpoint
      · rfl
    change _ ++ (fractionPart _).1 ≠ [] at hne
    rw [hfraction, List.append_nil] at hne
    rw [hfraction]
    exact ⟨cs.takeWhile isDigit, .whole hds hne, hcs.symm, fun rest hrest => parts_whole hds hrest⟩

theorem startsNumber_of_isDigit {d : Char} (hd : isDigit d = true) (cs : List Char) :
    startsNumber (d :: cs) = true := by
  unfold startsNumber
  split
  · next heq =>
    cases heq
    exact absurd hd (by decide)
  · next heq =>
    cases heq
    exact hd
  · next heq => cases heq

theorem startsNumber_of_mantissa {m : List Char} (h : Mantissa m) (rest : List Char) :
    startsNumber (m ++ rest) = true := by
  obtain ⟨hds, hne⟩ | @⟨ds, fs, hds, hfs, hne⟩ := h
  · obtain ⟨d, ds, rfl⟩ := List.exists_cons_of_ne_nil hne
    exact startsNumber_of_isDigit (hds d List.mem_cons_self) _
  · rcases ds with _ | ⟨d, ds⟩
    · obtain ⟨f, fs, rfl⟩ := List.exists_cons_of_ne_nil hne
      exact hfs f List.mem_cons_self
    · exact startsNumber_of_isDigit (hds d List.mem_cons_self) _

/-- A number starts with a digit or a point. -/
theorem head_of_mantissa {m : List Char} (h : Mantissa m) :
    ∃ c cs, m = c :: cs ∧ (isDigit c = true ∨ c = '.') := by
  obtain ⟨hds, hne⟩ | @⟨ds, fs, hds, -, -⟩ := h
  · obtain ⟨d, ds, rfl⟩ := List.exists_cons_of_ne_nil hne
    exact ⟨d, ds, rfl, .inl (hds d List.mem_cons_self)⟩
  · rcases ds with _ | ⟨d, ds⟩
    · exact ⟨'.', fs, rfl, .inr rfl⟩
    · exact ⟨d, ds ++ '.' :: fs, rfl, .inl (hds d List.mem_cons_self)⟩

/-- The text of a number is read as digits and not as a word. -/
theorem float?_of_mantissa {m : List Char} (h : Mantissa m) (rest : List Char) :
    float? (m ++ rest) = (decimal? (m ++ rest)).map fun p => scientific false p.1 p.2 := by
  obtain ⟨c, cs, rfl, hc⟩ := head_of_mantissa h
  have hsign : takeSign (c :: (cs ++ rest)) = (false, c :: (cs ++ rest)) := by
    unfold takeSign
    split
    · next heq =>
      cases heq
      exact absurd hc (by decide)
    · next heq =>
      cases heq
      exact absurd hc (by decide)
    · rfl
  have hlow : c.toLower = c := by
    rcases hc with hc | rfl
    · exact toLower_digit hc
    · rfl
  -- none of the words that are read as numbers starts like one
  have hword : ∀ {d : Char} {w : String}, w.toList.head? = some d → isDigit d = false → d ≠ '.' →
      String.ofList ((c :: (cs ++ rest)).map Char.toLower) ≠ w := by
    intro d w hw hd hpoint heq
    rw [← heq, String.toList_ofList, List.map_cons, hlow] at hw
    cases hw
    rcases hc with hc | hc
    · rw [hc] at hd
      cases hd
    · exact hpoint hc
  rw [List.cons_append]
  unfold float?
  rw [hsign]
  dsimp only
  rw [if_neg, if_neg (hword rfl (by decide) (by decide))]
  exact not_or.mpr ⟨hword rfl (by decide) (by decide), hword rfl (by decide) (by decide)⟩

theorem decimal?_eq (cs : List Char) : decimal? cs =
    let digits := cs.takeWhile isDigit ++ (fractionPart (cs.dropWhile isDigit)).1
    let places := Int.ofNat (fractionPart (cs.dropWhile isDigit)).1.length
    if digits.isEmpty then none
    else match (fractionPart (cs.dropWhile isDigit)).2 with
      | [] => some (digitsValue digits, -places)
      | c :: more =>
        if c = 'e' ∨ c = 'E' then (exponent? more).map fun e => (digitsValue digits, e - places)
        else none :=
  rfl

/-- **The number that is taken is well formed and has the value that it is read with.** -/
theorem number_spec {cs : List Char} (h : startsNumber cs = true) :
    ∃ m e, cs = m ++ e ++ (number cs).2 ∧ Mantissa m ∧ Exponent e ∧
      float? (m ++ e) = some (number cs).1 := by
  obtain ⟨m, hm, hcs, hparts⟩ := exists_mantissa h
  set parts := fractionPart (cs.dropWhile isDigit) with hdef
  have hvalue : ∀ {w : List Char} {e : Int}, Unmantissa w →
      (w = [] ∧ e = 0 ∨ ∃ c more, w = c :: more ∧ (c = 'e' ∨ c = 'E') ∧ exponent? more = some e) →
      float? (m ++ w) = some (scientific false
        (digitsValue (cs.takeWhile isDigit ++ parts.1)) (e - Int.ofNat parts.1.length)) := by
    intro w e hw hcase
    obtain ⟨h1, h2⟩ := hparts w hw
    rw [float?_of_mantissa hm, decimal?_eq, h1, h2]
    dsimp only
    rw [if_neg (by simpa using parts_ne_nil h)]
    rcases hcase with ⟨rfl, rfl⟩ | ⟨c, more, rfl, hc, he⟩
    · dsimp only
      rw [Option.map_some, Int.zero_sub]
    · dsimp only
      rw [if_pos hc, he]
      rfl
  have hnumber : number cs = (scientific false (digitsValue (cs.takeWhile isDigit ++ parts.1))
      ((exponentPart parts.2).1 - Int.ofNat parts.1.length), (exponentPart parts.2).2) := rfl
  rw [hnumber]
  dsimp only
  rcases exponentPart_spec parts.2 with he | ⟨e, w, v, hc, hexp, hv, hrest, hval⟩
  · rw [he]
    refine ⟨m, [], by rw [List.append_nil]; exact hcs, hm, .none, ?_⟩
    exact hvalue (fun c hc => (by cases hc)) (.inl ⟨rfl, rfl⟩)
  · refine ⟨m, e :: w, by rw [List.append_assoc, ← hrest]; exact hcs, hm, hexp, ?_⟩
    have := unmantissa_exponent hexp (List.cons_ne_nil _ _) []
    rw [List.append_nil] at this
    rw [hval]
    exact hvalue this (.inr ⟨e, w, rfl, hc, hv⟩)

/-- What is left after a number is no longer than what follows a word that stands there. -/
theorem length_number_le {m e : List Char} (hm : Mantissa m) (he : Exponent e) (rest : List Char) :
    (number (m ++ e ++ rest)).2.length ≤ rest.length := by
  have hle : ∀ cs, (number cs).2.length ≤ (fractionPart (cs.dropWhile isDigit)).2.length :=
    fun cs => length_exponentPart_le _
  have hdrop := (List.dropWhile_sublist isDigit (l := rest)).length_le
  by_cases hne : e = []
  · subst hne
    rw [List.append_nil]
    refine Nat.le_trans (hle _) ?_
    obtain ⟨hds, hne⟩ | @⟨ds, fs, hds, hfs, -⟩ := hm
    · rw [List.dropWhile_append_of_pos hds]
      exact Nat.le_trans (length_fractionPart_le _) hdrop
    · rw [List.append_assoc, List.dropWhile_append_of_pos hds, List.cons_append,
        List.dropWhile_cons_of_neg (by decide), fractionPart, List.dropWhile_append_of_pos hfs]
      exact hdrop
  · have hend := unmantissa_exponent he hne
    have hsplit : (fractionPart ((m ++ e ++ rest).dropWhile isDigit)).2 = e ++ rest := by
      rw [List.append_assoc]
      obtain ⟨hds, -⟩ | ⟨hds, hfs, -⟩ := hm
      · rw [(parts_whole hds (hend rest)).2]
      · rw [(parts_point hds hfs (hend rest)).2]
    calc (number (m ++ e ++ rest)).2.length
        = (exponentPart (e ++ rest)).2.length := by rw [← hsplit]; rfl
      _ = (rest.dropWhile isDigit).length := by rw [exponentPart_exponent he hne]
      _ ≤ rest.length := hdrop

end

/-! ## Numbers as they are printed -/

theorem digits_natDigits (n : ℕ) : Digits (natDigits n) := by
  intro c hc
  have h := Nat.isDigit_of_mem_toDigits (by decide) (by decide) hc
  unfold Char.isDigit at h
  exact h

theorem digits_append {ds fs : List Char} (hds : Digits ds) (hfs : Digits fs) :
    Digits (ds ++ fs) := by
  intro c hc
  exact (List.mem_append.mp hc).elim (hds c) (hfs c)

theorem digits_zeros (n : ℕ) : Digits (List.replicate n '0') := by
  intro c hc
  rw [List.eq_of_mem_replicate hc]
  decide

/-- Positional text is a number. -/
theorem mantissa_positional (d : ℕ) (k : ℤ) : Mantissa (positional d k) := by
  unfold positional
  split
  · split
    · exact .whole (fun c hc => by rw [List.mem_singleton.mp hc]; decide) (List.cons_ne_nil _ _)
    · exact .whole (digits_append (digits_natDigits d) (digits_zeros _))
        (List.append_ne_nil_of_left_ne_nil Nat.toDigits_ne_nil _)
  · have hpadded : Digits (zeroPadded ((-k).toNat + 1) d) :=
      digits_append (digits_zeros _) (digits_natDigits d)
    refine .point (fun c hc => hpadded c (List.mem_of_mem_take hc))
      (fun c hc => hpadded c (List.mem_of_mem_drop hc)) ?_
    rw [List.take_append_drop]
    exact List.append_ne_nil_of_right_ne_nil _ Nat.toDigits_ne_nil

/-- **A finite double with no sign is printed as a number without an exponent.** -/
theorem mantissa_plainChars {x : Float} {m : ℕ} {e : ℤ} (h : Binary.ofFloat x = .finite false m e) :
    Mantissa (plainChars x) := by
  unfold plainChars
  rw [h]
  exact mantissa_positional _ _

end TickBacktest.Expression
