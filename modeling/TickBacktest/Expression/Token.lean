import TickBacktest.Decimal.Reading
import TickBacktest.Expression.Operator
import TickBacktest.Text.Blank
import TickBacktest.Text.Numeric

/-! # Tokens

The pieces of an expression, each cut off the front of the text: names, numbers, quoted texts and
operators. A token takes as many characters as it can. Every function here returns what is left of
the text, and a small lemma says that this is shorter. -/

namespace TickBacktest.Expression

open Decimal Text

/-! ## Names -/

/-- A character that a name may start with. -/
def startsName (c : Char) : Bool := isAlphabetic c || c == '_'

/-- A character that a name may go on with. -/
def continuesName (c : Char) : Bool := isAlphanumeric c || c == '_'

/-- The name at the front of a text. -/
def name? : List Char → Option (String × List Char)
  | [] => none
  | c :: cs =>
    if startsName c then
      some (String.ofList (c :: cs.takeWhile continuesName), cs.dropWhile continuesName)
    else none

theorem length_of_name? {cs : List Char} {s : String} {rest : List Char}
    (h : name? cs = some (s, rest)) : rest.length < cs.length := by
  cases cs with
  | nil => simp [name?] at h
  | cons c cs =>
    simp only [name?] at h
    split at h
    · simp only [Option.some.injEq, Prod.mk.injEq] at h
      rw [← h.2, List.length_cons]
      exact Nat.lt_succ_of_le (List.dropWhile_sublist _).length_le
    · simp at h

/-! ## Numbers -/

/-- The exponent at the front of a text: an `e`, an optional sign and at least one digit. Without
a digit nothing is taken. -/
def exponentPart (cs : List Char) : Int × List Char :=
  match cs with
  | [] => (0, [])
  | c :: more =>
    if c = 'e' ∨ c = 'E' then
      let (negative, ds) := takeSign more
      let n := digitsValue (ds.takeWhile isDigit)
      if (ds.takeWhile isDigit).isEmpty then (0, cs)
      else (if negative then -Int.ofNat n else Int.ofNat n, ds.dropWhile isDigit)
    else (0, cs)

theorem length_exponentPart_le (cs : List Char) : (exponentPart cs).2.length ≤ cs.length := by
  unfold exponentPart
  split
  · simp
  · next c more =>
    split
    · dsimp only
      split
      · exact Nat.le_refl _
      · have h1 := (List.dropWhile_sublist isDigit (l := (takeSign more).2)).length_le
        have h2 := length_takeSign_le more
        simp only [List.length_cons]
        omega
    · exact Nat.le_refl _

/-- The point and the digits after it at the front of a text, as the digits alone. -/
def fractionPart (cs : List Char) : List Char × List Char :=
  match cs with
  | '.' :: more => (more.takeWhile isDigit, more.dropWhile isDigit)
  | _ => ([], cs)

theorem length_fractionPart_le (cs : List Char) : (fractionPart cs).2.length ≤ cs.length := by
  unfold fractionPart
  split
  · next more =>
    have := (List.dropWhile_sublist isDigit (l := more)).length_le
    simp only [List.length_cons]
    omega
  · exact Nat.le_refl _

/-- The number at the front of a text that starts with a digit or with a point and a digit. -/
def number (cs : List Char) : Float × List Char :=
  let whole := cs.takeWhile isDigit
  let (fraction, rest) := fractionPart (cs.dropWhile isDigit)
  let (e, rest) := exponentPart rest
  (scientific false (digitsValue (whole ++ fraction)) (e - Int.ofNat fraction.length), rest)

/-- Whether a number starts here. -/
def startsNumber : List Char → Bool
  | '.' :: c :: _ => isDigit c
  | c :: _ => isDigit c
  | [] => false

theorem length_number_lt {cs : List Char} (h : startsNumber cs = true) :
    (number cs).2.length < cs.length := by
  have hrest : (number cs).2.length ≤ (fractionPart (cs.dropWhile isDigit)).2.length :=
    length_exponentPart_le _
  refine Nat.lt_of_le_of_lt hrest ?_
  unfold startsNumber at h
  split at h
  · next c more =>
    have hp : List.dropWhile isDigit ('.' :: c :: more) = '.' :: c :: more := by
      rw [List.dropWhile_cons_of_neg (by decide)]
    rw [hp, fractionPart]
    have := (List.dropWhile_sublist isDigit (l := c :: more)).length_le
    simp only [List.length_cons] at this ⊢
    omega
  · next c more _ =>
    refine Nat.lt_of_le_of_lt (length_fractionPart_le _) ?_
    rw [List.dropWhile_cons_of_pos h]
    exact Nat.lt_succ_of_le (List.dropWhile_sublist _).length_le
  · simp at h

/-! ## Quoted texts -/

/-- A text up to its closing quote, which is not part of it. A backslash takes the next character
as it is. -/
def quotedBody (quote : Char) : List Char → Option (List Char × List Char)
  | [] => none
  | [c] => if c = quote then some ([], []) else none
  | c :: d :: cs =>
    if c = quote then some ([], d :: cs)
    else if c = '\\' then (quotedBody quote cs).map fun (body, rest) => (d :: body, rest)
    else (quotedBody quote (d :: cs)).map fun (body, rest) => (c :: body, rest)

theorem length_of_quotedBody {quote : Char} {cs body rest : List Char}
    (h : quotedBody quote cs = some (body, rest)) : rest.length < cs.length := by
  fun_induction quotedBody quote cs generalizing body with
  | case1 => simp at h
  | case2 => simp_all
  | case3 => simp at h
  | case4 d cs =>
    simp only [Option.some.injEq, Prod.mk.injEq] at h
    rw [← h.2, List.length_cons]
    exact Nat.lt_succ_self _
  | case5 d cs _ ih =>
    obtain ⟨⟨b, r⟩, hb, he⟩ := Option.map_eq_some_iff.1 h
    simp only [Prod.mk.injEq] at he
    have := ih (he.2 ▸ hb)
    simp only [List.length_cons]
    omega
  | case6 c d cs _ _ ih =>
    obtain ⟨⟨b, r⟩, hb, he⟩ := Option.map_eq_some_iff.1 h
    simp only [Prod.mk.injEq] at he
    have := ih (he.2 ▸ hb)
    simp only [List.length_cons] at this ⊢
    omega

/-! ## Operators -/

/-- A sum or a difference goes on here. -/
def additive? : List Char → Option (Operator × List Char)
  | '+' :: cs => some (.add, cs)
  | '-' :: cs => some (.sub, cs)
  | _ => none

/-- A product, quotient or remainder goes on here. Two stars are a power, not a product. -/
def multiplicative? : List Char → Option (Operator × List Char)
  | '*' :: '*' :: _ => none
  | '/' :: '/' :: cs => some (.floorDiv, cs)
  | '*' :: cs => some (.mul, cs)
  | '/' :: cs => some (.div, cs)
  | '%' :: cs => some (.mod, cs)
  | _ => none

/-- A power goes on here. -/
def power? : List Char → Option (List Char)
  | '*' :: '*' :: cs => some cs
  | '^' :: cs => some cs
  | _ => none

/-- A comparison goes on here. -/
def comparison? : List Char → Option (Comparison × List Char)
  | '>' :: '=' :: cs => some (.ge, cs)
  | '<' :: '=' :: cs => some (.le, cs)
  | '=' :: '=' :: cs => some (.eq, cs)
  | '!' :: '=' :: cs => some (.ne, cs)
  | '>' :: cs => some (.gt, cs)
  | '<' :: cs => some (.lt, cs)
  | _ => none

/-- A sign stands here. -/
def sign? : List Char → Option (Sign × List Char)
  | '-' :: cs => some (.minus, cs)
  | '+' :: cs => some (.plus, cs)
  | _ => none

/-- The name of a keyword argument and the text of its value: a name and, after blanks, an equals
sign that does not start a comparison. -/
def keyword? (cs : List Char) : Option (String × List Char) :=
  (name? cs).bind fun (name, rest) =>
    match trimLeft rest with
    | '=' :: '=' :: _ => none
    | '=' :: value => some (name, value)
    | _ => none

theorem length_of_additive? {cs : List Char} {op : Operator} {rest : List Char}
    (h : additive? cs = some (op, rest)) : rest.length < cs.length := by
  unfold additive? at h
  split at h <;> simp_all

theorem length_of_multiplicative? {cs : List Char} {op : Operator} {rest : List Char}
    (h : multiplicative? cs = some (op, rest)) : rest.length < cs.length := by
  unfold multiplicative? at h
  split at h <;> simp only [Option.some.injEq, Prod.mk.injEq, reduceCtorEq] at h
  all_goals rw [← h.2]; simp only [List.length_cons]; omega

theorem length_of_power? {cs rest : List Char} (h : power? cs = some rest) :
    rest.length < cs.length := by
  unfold power? at h
  split at h <;> simp only [Option.some.injEq, reduceCtorEq] at h
  all_goals rw [← h]; simp only [List.length_cons]; omega

theorem length_of_comparison? {cs : List Char} {op : Comparison} {rest : List Char}
    (h : comparison? cs = some (op, rest)) : rest.length < cs.length := by
  unfold comparison? at h
  split at h <;> simp only [Option.some.injEq, Prod.mk.injEq, reduceCtorEq] at h
  all_goals rw [← h.2]; simp only [List.length_cons]; omega

theorem length_of_sign? {cs : List Char} {sign : Sign} {rest : List Char}
    (h : sign? cs = some (sign, rest)) : rest.length < cs.length := by
  unfold sign? at h
  split at h <;> simp_all

theorem length_of_keyword? {cs : List Char} {name : String} {value : List Char}
    (h : keyword? cs = some (name, value)) : value.length < cs.length := by
  obtain ⟨⟨s, rest⟩, hs, hv⟩ := Option.bind_eq_some_iff.1 h
  have h1 := length_of_name? hs
  have h2 := length_trimLeft_le rest
  dsimp only at hv
  split at hv
  · simp at hv
  · next heq =>
    simp only [Option.some.injEq, Prod.mk.injEq] at hv
    rw [← hv.2]
    rw [heq] at h2
    simp only [List.length_cons] at h2
    omega
  · simp at hv

end TickBacktest.Expression
