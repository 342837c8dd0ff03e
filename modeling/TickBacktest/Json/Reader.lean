import TickBacktest.Json.Source
import TickBacktest.Text.Parsed

/-! # Reading JSON

A document is one value with blanks around it. Reading checks how it is written and decides nothing
about its use: a number that is too large and a text with half a surrogate pair are read, and marked
as unusable. -/

namespace TickBacktest.Json

open Decimal (isDigit)
open Text (Parsed length_of_cons)

/-- The blanks of JSON. -/
def isBlank (c : Char) : Bool := c = ' ' || c = '\t' || c = '\n' || c = '\r'

/-- The text after leading blanks. -/
def skip (cs : List Char) : List Char := cs.dropWhile isBlank

theorem length_skip_le (cs : List Char) : (skip cs).length ≤ cs.length :=
  (List.dropWhile_sublist _).length_le

theorem length_of_skip {c : Char} {cs rest : List Char} (h : skip cs = c :: rest) :
    rest.length < cs.length :=
  Nat.lt_of_lt_of_le (length_of_cons h) (length_skip_le cs)

/-! ## Texts -/

/-- The value of a hexadecimal digit. -/
def hexValue? (c : Char) : Option Nat :=
  if isDigit c then some (c.toNat - 48)
  else if 'a' ≤ c ∧ c ≤ 'f' then some (c.toNat - 87)
  else if 'A' ≤ c ∧ c ≤ 'F' then some (c.toNat - 55)
  else none

/-- The number written by four hexadecimal digits. -/
def hex4? (a b c d : Char) : Option Nat := do
  return (((← hexValue? a) * 16 + (← hexValue? b)) * 16 + (← hexValue? c)) * 16 + (← hexValue? d)

/-- The character that a letter stands for after a backslash. -/
def escape? (c : Char) : Option Char :=
  match c with
  | '"' => some '"'
  | '\\' => some '\\'
  | '/' => some '/'
  | 'b' => some '\x08'
  | 'f' => some '\x0c'
  | 'n' => some '\n'
  | 'r' => some '\r'
  | 't' => some '\t'
  | _ => none

/-- Whether a code unit is the first half of a surrogate pair. -/
def isHigh (n : Nat) : Bool := 0xD800 ≤ n && n ≤ 0xDBFF

/-- Whether a code unit is the second half of a surrogate pair. -/
def isLow (n : Nat) : Bool := 0xDC00 ≤ n && n ≤ 0xDFFF

/-- The code point of a surrogate pair. -/
def ofPair (high low : Nat) : Char :=
  Char.ofNat ((high - 0xD800) * 0x400 + (low - 0xDC00) + 0x10000)

/-- The code unit of an escape `\uXXXX` at the front of a text. -/
def unit? : List Char → Option (Nat × List Char)
  | '\\' :: 'u' :: a :: b :: c :: d :: cs => (hex4? a b c d).map fun n => (n, cs)
  | _ => none

/-- The code unit that an escape gives and that is one of a pair's second halves. -/
def lowUnit? (cs : List Char) : Option (Nat × List Char) :=
  (unit? cs).filter fun (n, _) => isLow n

theorem length_of_unit? {cs : List Char} {n : Nat} {rest : List Char}
    (h : unit? cs = some (n, rest)) : rest.length < cs.length := by
  unfold unit? at h
  split at h
  · obtain ⟨m, -, he⟩ := Option.map_eq_some_iff.1 h
    simp only [Prod.mk.injEq] at he
    rw [← he.2]
    simp only [List.length_cons]
    omega
  · simp at h

theorem length_of_lowUnit? {cs : List Char} {n : Nat} {rest : List Char}
    (h : lowUnit? cs = some (n, rest)) : rest.length < cs.length :=
  length_of_unit? (Option.eq_some_of_filter_eq_some h)

/-- A text up to its closing quote, after the characters found so far, latest first, or after half a
surrogate pair. -/
def textFrom {cs : List Char} (found : Parsed (Option (List Char)) cs) :
    Option (Parsed (Option String) cs) :=
  match h : found.rest with
  | [] => none
  | '"' :: rest =>
    some ⟨found.value.map fun f => String.ofList f.reverse, rest,
      Nat.lt_trans (length_of_cons h) found.shorter⟩
  | '\\' :: cs' =>
    match hu : unit? ('\\' :: cs') with
    | some (n, rest) =>
      have h1 : rest.length < found.rest.length := h ▸ length_of_unit? hu
      if isHigh n then
        match hl : lowUnit? rest with
        | some (m, rest') =>
          have h1 := Nat.lt_trans (length_of_lowUnit? hl) h1
          textFrom ⟨found.value.map (ofPair n m :: ·), rest', Nat.lt_trans h1 found.shorter⟩
        | none => textFrom ⟨none, rest, Nat.lt_trans h1 found.shorter⟩
      else if isLow n then textFrom ⟨none, rest, Nat.lt_trans h1 found.shorter⟩
      else
        textFrom ⟨found.value.map (Char.ofNat n :: ·), rest, Nat.lt_trans h1 found.shorter⟩
    | none =>
      match cs' with
      | [] => none
      | e :: rest =>
        have h1 := Nat.lt_trans (Nat.lt_succ_self rest.length) (length_of_cons h)
        match escape? e with
        | some c => textFrom ⟨found.value.map (c :: ·), rest, Nat.lt_trans h1 found.shorter⟩
        | none => none
  | c :: rest =>
    have h1 := length_of_cons h
    if c.toNat < 32 then none
    else textFrom ⟨found.value.map (c :: ·), rest, Nat.lt_trans h1 found.shorter⟩
termination_by found.rest.length
decreasing_by all_goals exact h1

/-! ## Numbers -/

/-- The digits at the front of a text. -/
def digits (cs : List Char) : List Char × List Char := (cs.takeWhile isDigit, cs.dropWhile isDigit)

/-- The whole part of a number: a zero, or digits that do not start with one. -/
def wholePart? (cs : List Char) : Option (List Char × List Char) :=
  match digits cs with
  | ([], _) => none
  | (['0'], rest) => some (['0'], rest)
  | ('0' :: _ :: _, _) => none
  | (ds, rest) => some (ds, rest)

/-- The fraction of a number, if there is a point: at least one digit. -/
def fractionPart? (cs : List Char) : Option (List Char × List Char) :=
  match cs with
  | '.' :: more =>
    match digits more with
    | ([], _) => none
    | found => some found
  | _ => some ([], cs)

/-- The exponent of a number, if there is an `e`: an optional sign and at least one digit. -/
def exponentPart? (cs : List Char) : Option (Option (Bool × List Char) × List Char) :=
  match cs with
  | c :: more =>
    if c = 'e' ∨ c = 'E' then
      let (negative, rest) := Decimal.takeSign more
      match digits rest with
      | ([], _) => none
      | (ds, rest) => some (some (negative, ds), rest)
    else some (none, cs)
  | [] => some (none, [])

/-- The number at the front of a text. -/
def number? (cs : List Char) : Option (Option Number × List Char) := do
  let (negative, body) := match cs with
    | '-' :: more => (true, more)
    | _ => (false, cs)
  let (whole, rest) ← wholePart? body
  let (fraction, rest) ← fractionPart? rest
  let (exponent, rest) ← exponentPart? rest
  return (NumberText.number ⟨negative, whole, fraction, exponent⟩, rest)

theorem length_of_wholePart? {cs ds rest : List Char} (h : wholePart? cs = some (ds, rest)) :
    rest.length < cs.length := by
  have key : ∀ {ds rest}, digits cs = (ds, rest) → ds ≠ [] → rest.length < cs.length := by
    intro ds rest he hne
    simp only [digits, Prod.mk.injEq] at he
    have := congrArg List.length (List.takeWhile_append_dropWhile (p := isDigit) (l := cs))
    rw [List.length_append, he.1, he.2] at this
    have := List.length_pos_iff.2 hne
    omega
  unfold wholePart? at h
  split at h
  · simp at h
  · next r he =>
    simp only [Option.some.injEq, Prod.mk.injEq] at h
    exact h.2 ▸ key he (by simp)
  · simp at h
  · next ds' r h1 _ _ he =>
    simp only [Option.some.injEq, Prod.mk.injEq] at h
    exact h.2 ▸ key he (by rintro rfl; exact h1 rfl)

theorem length_of_fractionPart? {cs ds rest : List Char} (h : fractionPart? cs = some (ds, rest)) :
    rest.length ≤ cs.length := by
  unfold fractionPart? at h
  split at h
  · next more =>
    split at h
    · simp at h
    · next found _ =>
      simp only [digits, Option.some.injEq, Prod.mk.injEq] at h
      rw [← h.2, List.length_cons]
      exact Nat.le_succ_of_le (List.dropWhile_sublist _).length_le
  · simp only [Option.some.injEq, Prod.mk.injEq] at h
    exact h.2 ▸ Nat.le_refl _

theorem length_of_exponentPart? {cs rest : List Char} {e : Option (Bool × List Char)}
    (h : exponentPart? cs = some (e, rest)) : rest.length ≤ cs.length := by
  unfold exponentPart? at h
  split at h
  · next c more =>
    split at h
    · dsimp only at h
      split at h
      · simp at h
      · next ds r _ he =>
        simp only [digits, Prod.mk.injEq] at he
        simp only [Option.some.injEq, Prod.mk.injEq] at h
        rw [← h.2, ← he.2, List.length_cons]
        have h1 := (List.dropWhile_sublist isDigit (l := (Decimal.takeSign more).2)).length_le
        have h2 := Decimal.length_takeSign_le more
        omega
    · simp only [Option.some.injEq, Prod.mk.injEq] at h
      exact h.2 ▸ Nat.le_refl _
  · simp only [Option.some.injEq, Prod.mk.injEq] at h
    exact h.2 ▸ Nat.zero_le _

theorem length_of_number? {cs rest : List Char} {n : Option Number}
    (h : number? cs = some (n, rest)) : rest.length < cs.length := by
  have key : ∀ {negative : Bool} {body : List Char}, body.length ≤ cs.length →
      (do
        let (whole, rest) ← wholePart? body
        let (fraction, rest) ← fractionPart? rest
        let (exponent, rest) ← exponentPart? rest
        return (NumberText.number ⟨negative, whole, fraction, exponent⟩, rest) :
          Option (Option Number × List Char)) = some (n, rest) → rest.length < cs.length := by
    intro negative body hle h
    simp only [Option.bind_eq_bind, Option.bind_eq_some_iff, Prod.exists, pure, Option.some.injEq,
      Prod.mk.injEq] at h
    obtain ⟨w, r1, h1, f, r2, h2, e, r3, h3, -, rfl⟩ := h
    have := length_of_wholePart? h1
    have := length_of_fractionPart? h2
    have := length_of_exponentPart? h3
    omega
  unfold number? at h
  dsimp only at h
  split at h
  · exact key (by simp) h
  · exact key (Nat.le_refl _) h

/-! ## Values -/

/-- A word at the front of a text. -/
def word? (word cs : List Char) : Option (List Char) :=
  if word.isPrefixOf cs then some (cs.drop word.length) else none

theorem length_of_word? {word cs rest : List Char} (hw : word ≠ [])
    (h : word? word cs = some rest) : rest.length < cs.length := by
  unfold word? at h
  split at h
  · next hp =>
    have h1 := (List.isPrefixOf_iff_prefix.1 hp).length_le
    have h2 := List.length_pos_iff.2 hw
    simp only [Option.some.injEq] at h
    rw [← h, List.length_drop]
    omega
  · simp at h

/-- A value that has no parts. -/
def atom? (cs : List Char) : Option (Source × List Char) :=
  ((word? "null".toList cs).map fun rest => (.null, rest)) <|>
  ((word? "true".toList cs).map fun rest => (.bool true, rest)) <|>
  ((word? "false".toList cs).map fun rest => (.bool false, rest)) <|>
  ((number? cs).map fun (n, rest) => (.number n, rest))

theorem length_of_atom? {cs rest : List Char} {v : Source} (h : atom? cs = some (v, rest)) :
    rest.length < cs.length := by
  simp only [atom?, Option.orElse_eq_orElse, Option.orElse_eq_or, Option.or_eq_some_iff,
    Option.map_eq_some_iff, Prod.mk.injEq] at h
  rcases h with ⟨r, h, -, rfl⟩ | ⟨-, ⟨r, h, -, rfl⟩ | ⟨-, ⟨r, h, -, rfl⟩ | ⟨-, ⟨n, r⟩, h, -, rfl⟩⟩⟩
  · exact length_of_word? (by decide) h
  · exact length_of_word? (by decide) h
  · exact length_of_word? (by decide) h
  · exact length_of_number? h

mutual

/-- The value at the front of a text, after blanks. -/
def value? (text : List Char) : Option (Parsed Source text) :=
  match h : skip text with
  | [] => none
  | c :: cs =>
    have h1 := length_of_skip h
    if c = '"' then
      (textFrom ⟨some [], cs, h1⟩).map fun p => p.replace (.text p.value)
    else if c = '[' then
      match hs : skip cs with
      | [] => none
      | d :: rest =>
        if d = ']' then some ⟨.array [], rest, Nat.lt_trans (length_of_skip hs) h1⟩
        else (items? ⟨[], cs, h1⟩).map fun p => p.replace (.array p.value)
    else if c = '\x7b' then
      match hs : skip cs with
      | [] => none
      | d :: rest =>
        if d = '\x7d' then some ⟨.object [], rest, Nat.lt_trans (length_of_skip hs) h1⟩
        else (entries? ⟨[], cs, h1⟩).map fun p => p.replace (.object p.value)
    else
      match ha : atom? (c :: cs) with
      | none => none
      | some (v, rest) =>
        some ⟨v, rest, Nat.lt_of_lt_of_le (length_of_atom? ha) (h ▸ length_skip_le text)⟩
termination_by (text.length, 0)
decreasing_by all_goals exact Prod.Lex.left _ _ h1

/-- The items of an array up to its closing bracket, after those found so far, latest first. -/
def items? {text : List Char} (found : Parsed (List Source) text) :
    Option (Parsed (List Source) text) :=
  match value? found.rest with
  | none => none
  | some p =>
    match h : skip p.rest with
    | [] => none
    | c :: rest =>
      have h1 := Nat.lt_trans (length_of_skip h) p.shorter
      if c = ',' then items? ⟨p.value :: found.value, rest, Nat.lt_trans h1 found.shorter⟩
      else if c = ']' then
        some ⟨(p.value :: found.value).reverse, rest, Nat.lt_trans h1 found.shorter⟩
      else none
termination_by (found.rest.length, 1)
decreasing_by
  · exact Prod.Lex.right _ Nat.zero_lt_one
  · exact Prod.Lex.left _ _ h1

/-- The entries of an object up to its closing brace, after those found so far, latest first. -/
def entries? {text : List Char} (found : Parsed (List (Option String × Source)) text) :
    Option (Parsed (List (Option String × Source)) text) :=
  match h : skip found.rest with
  | '"' :: cs =>
    match textFrom ⟨some [], cs, length_of_skip h⟩ with
    | none => none
    | some key =>
      match hc : skip key.rest with
      | ':' :: rest =>
        have h1 := Nat.lt_trans (length_of_skip hc) key.shorter
        match value? rest with
        | none => none
        | some p =>
          match hd : skip p.rest with
          | [] => none
          | d :: more =>
            have h1 := Nat.lt_trans (Nat.lt_trans (length_of_skip hd) p.shorter) h1
            have h2 := Nat.lt_trans h1 found.shorter
            if d = ',' then entries? ⟨(key.value, p.value) :: found.value, more, h2⟩
            else if d = '\x7d' then
              some ⟨((key.value, p.value) :: found.value).reverse, more, h2⟩
            else none
      | _ => none
  | _ => none
termination_by (found.rest.length, 1)
decreasing_by all_goals exact Prod.Lex.left _ _ h1

end

/-- The document that a text is. -/
def read? (text : String) : Option Source :=
  match value? text.toList with
  | none => none
  | some p => if (skip p.rest).isEmpty then some p.value else none

end TickBacktest.Json
