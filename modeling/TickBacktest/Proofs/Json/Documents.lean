import TickBacktest.Proofs.Json.Numbers
import TickBacktest.Proofs.Json.Parts
import TickBacktest.Proofs.Json.Texts

/-! # Reading back what was written

A value is read back from its text whatever may come after it (`IsRead`): one lemma for each kind of
value, that of an array and of an object by the items and entries one after the other. So the text
of a value is a document, and is read as this value (`read?_compact`). Of its numbers, doubles have
to be read back too; whole numbers are, and what is read has no others (`inRange_read?`). -/

namespace TickBacktest.Json

open Text (Parsed)

/-! ## Reading a value -/

theorem skip_cons {c : Char} (hc : isBlank c = false) (cs : List Char) : skip (c :: cs) = c :: cs :=
  List.dropWhile_cons_of_neg (by simp [hc])

section

variable {text rest : List Char}

theorem value?_text {s : String} : Yields (value? (textChars s ++ rest)) (.text (some s)) rest := by
  have hskip : skip (textChars s ++ rest) = textChars s ++ rest := skip_cons (by decide) _
  rw [value?]
  split
  · next h => cases hskip.symm.trans h
  · next c cs h =>
    have hc := hskip.symm.trans h
    cases (List.cons.inj hc).1
    obtain ⟨hr, ht⟩ := textFrom_textChars hc (length_of_skip h)
    exact ⟨hr, by rw [if_pos rfl, ht]; rfl⟩

/-- A value without parts, which does not start as a text, an array or an object. -/
theorem value?_atom {c : Char} {cs : List Char} {v : Source}
    (hc : c ∉ [' ', '\t', '\n', '\r', '"', '[', '\x7b']) (h : atom? (c :: cs) = some (v, rest)) :
    Yields (value? (c :: cs)) v rest := by
  simp only [List.mem_cons, List.not_mem_nil, or_false, not_or] at hc
  obtain ⟨h1, h2, h3, h4, h5, h6, h7⟩ := hc
  have hskip : skip (c :: cs) = c :: cs := skip_cons (by simp [isBlank, h1, h2, h3, h4]) cs
  rw [value?]
  split
  · next heq => cases hskip.symm.trans heq
  · next heq =>
    cases hskip.symm.trans heq
    rw [if_neg h5, if_neg h6, if_neg h7]
    split
    · next heq => cases h.symm.trans heq
    · next heq =>
      cases h.symm.trans heq
      exact ⟨_, rfl⟩

/-- Brackets with nothing between them. -/
theorem value?_array_nil : Yields (value? ('[' :: ']' :: rest)) (.array []) rest := by
  have hopen : skip ('[' :: ']' :: rest) = '[' :: ']' :: rest := skip_cons (by decide) _
  have hclose : skip (']' :: rest) = ']' :: rest := skip_cons (by decide) _
  rw [value?]
  split
  · next heq => cases hopen.symm.trans heq
  · next heq =>
    cases hopen.symm.trans heq
    rw [if_neg (by decide), if_pos rfl]
    split
    · next hs => cases hclose.symm.trans hs
    · next hs =>
      cases hclose.symm.trans hs
      exact ⟨_, if_pos rfl⟩

theorem value?_array {cs : List Char} {xs : List Source}
    (hcs : ∃ d more, skip cs = d :: more ∧ d ≠ ']')
    (h : ∀ {text : List Char} {found : Parsed (List Source) text}, found.value = [] →
      found.rest = cs → Yields (items? found) xs rest) :
    Yields (value? ('[' :: cs)) (.array xs) rest := by
  obtain ⟨d, more, hskip, hd⟩ := hcs
  have hopen : skip ('[' :: cs) = '[' :: cs := skip_cons (by decide) cs
  rw [value?]
  split
  · next heq => cases hopen.symm.trans heq
  · next heq =>
    cases hopen.symm.trans heq
    rw [if_neg (by decide), if_pos rfl]
    split
    · next hs => cases hskip.symm.trans hs
    · next hs =>
      cases hskip.symm.trans hs
      rw [if_neg hd]
      obtain ⟨hr, hi⟩ := @h ('[' :: cs) ⟨[], cs, length_of_skip heq⟩ rfl rfl
      exact ⟨hr, by rw [hi]; rfl⟩

/-- Braces with nothing between them. -/
theorem value?_object_nil : Yields (value? ('\x7b' :: '\x7d' :: rest)) (.object []) rest := by
  have hopen : skip ('\x7b' :: '\x7d' :: rest) = '\x7b' :: '\x7d' :: rest :=
    skip_cons (by decide) _
  have hclose : skip ('\x7d' :: rest) = '\x7d' :: rest := skip_cons (by decide) _
  rw [value?]
  split
  · next heq => cases hopen.symm.trans heq
  · next heq =>
    cases hopen.symm.trans heq
    rw [if_neg (by decide), if_neg (by decide), if_pos rfl]
    split
    · next hs => cases hclose.symm.trans hs
    · next hs =>
      cases hclose.symm.trans hs
      exact ⟨_, if_pos rfl⟩

theorem value?_object {cs : List Char} {es : List (Option String × Source)}
    (hcs : ∃ d more, skip cs = d :: more ∧ d ≠ '\x7d')
    (h : ∀ {text : List Char} {found : Parsed (List (Option String × Source)) text},
      found.value = [] → found.rest = cs → Yields (entries? found) es rest) :
    Yields (value? ('\x7b' :: cs)) (.object es) rest := by
  obtain ⟨d, more, hskip, hd⟩ := hcs
  have hopen : skip ('\x7b' :: cs) = '\x7b' :: cs := skip_cons (by decide) cs
  rw [value?]
  split
  · next heq => cases hopen.symm.trans heq
  · next heq =>
    cases hopen.symm.trans heq
    rw [if_neg (by decide), if_neg (by decide), if_pos rfl]
    split
    · next hs => cases hskip.symm.trans hs
    · next hs =>
      cases hskip.symm.trans hs
      rw [if_neg hd]
      obtain ⟨hr, hi⟩ := @h ('\x7b' :: cs) ⟨[], cs, length_of_skip heq⟩ rfl rfl
      exact ⟨hr, by rw [hi]; rfl⟩

/-- An item, and what comes after it. -/
theorem items?_item {found : Parsed (List Source) text} {x : Source} {c : Char} {more : List Char}
    (hc : isBlank c = false) (h : Yields (value? found.rest) x (c :: more)) :
    ∃ hr, items? found =
      if c = ',' then items? ⟨x :: found.value, more, hr⟩
      else if c = ']' then some ⟨(x :: found.value).reverse, more, hr⟩
      else none := by
  obtain ⟨hx, hv⟩ := h
  have hskip : skip (c :: more) = c :: more := skip_cons hc more
  have hlt := found.shorter
  rw [List.length_cons] at hx
  refine ⟨by omega, ?_⟩
  rw [items?, hv]
  dsimp only
  split
  · next heq => cases hskip.symm.trans heq
  · next heq =>
    cases hskip.symm.trans heq
    rfl

/-- An entry, and what comes after it. -/
theorem entries?_entry {found : Parsed (List (Option String × Source)) text} {key : String}
    {x : Source} {cs more : List Char} {c : Char} (hc : isBlank c = false)
    (hkey : found.rest = textChars key ++ ':' :: cs) (h : Yields (value? cs) x (c :: more)) :
    ∃ hr, entries? found =
      if c = ',' then entries? ⟨(some key, x) :: found.value, more, hr⟩
      else if c = '\x7d' then some ⟨((some key, x) :: found.value).reverse, more, hr⟩
      else none := by
  obtain ⟨hx, hv⟩ := h
  have hopen : skip found.rest = textChars key ++ ':' :: cs := by
    rw [hkey]
    exact skip_cons (by decide) _
  have hcolon : skip (':' :: cs) = ':' :: cs := skip_cons (by decide) cs
  have hskip : skip (c :: more) = c :: more := skip_cons hc more
  have hlt := found.shorter
  have hlength := congrArg List.length hkey
  simp only [List.length_append, List.length_cons] at hlength hx
  refine ⟨by omega, ?_⟩
  rw [entries?]
  split
  · next heq =>
    obtain ⟨hk, ht⟩ := textFrom_textChars (hopen.symm.trans heq) (length_of_skip heq)
    rw [ht]
    dsimp only
    split
    · next hs =>
      cases hcolon.symm.trans hs
      rw [hv]
      dsimp only
      split
      · next hd => cases hskip.symm.trans hd
      · next hd =>
        cases hskip.symm.trans hd
        rfl
    · next hs => exact absurd hcolon (hs _)
  · next hq => exact absurd hopen (hq _)

/-- What is at the front of a value is no closing bracket. -/
theorem head_of_value? {p : Parsed Source text} (h : value? text = some p) :
    ∃ d more, skip text = d :: more ∧ d ≠ ']' := by
  rw [value?] at h
  split at h
  · cases h
  · next d more heq =>
    refine ⟨d, more, heq, ?_⟩
    rintro rfl
    have hatom : atom? (']' :: more) = none := by
      have hnumber : number? (']' :: more) = none := by
        by_contra hn
        obtain ⟨⟨n, r⟩, hn⟩ := Option.ne_none_iff_exists'.mp hn
        obtain ⟨c, cs, hcs, hc⟩ := head_of_number? hn
        cases (List.cons.inj hcs).1
        exact absurd hc (by decide)
      unfold atom?
      rw [hnumber]
      rfl
    rw [if_neg (by decide), if_neg (by decide), if_neg (by decide)] at h
    split at h
    · cases h
    · next ha => cases hatom.symm.trans ha

end

/-! ## Reading back -/

/-- The value is read back from its text, whatever may come after it. -/
def IsRead (j : Json) : Prop :=
  ∀ {rest : List Char}, Closed rest → Yields (value? (j.compactChars ++ rest)) j.toSource rest

theorem word?_append (word rest : List Char) : word? word (word ++ rest) = some rest := by
  unfold word?
  rw [if_pos (List.isPrefixOf_iff_prefix.mpr (List.prefix_append word rest)), List.drop_left]

theorem word?_of_ne {c d : Char} (h : c ≠ d) (ds cs : List Char) :
    word? (d :: ds) (c :: cs) = none := by
  unfold word?
  rw [if_neg]
  simp [Ne.symm h]

theorem isRead_null : IsRead .null := by
  intro rest _
  change Yields (value? ('n' :: 'u' :: 'l' :: 'l' :: rest)) .null rest
  have hword : word? "null".toList ('n' :: 'u' :: 'l' :: 'l' :: rest) = some rest :=
    word?_append _ _
  refine value?_atom (by decide) ?_
  unfold atom?
  rw [hword]
  rfl

theorem isRead_bool (b : Bool) : IsRead (.bool b) := by
  intro rest _
  cases b with
  | true =>
    change Yields (value? ('t' :: 'r' :: 'u' :: 'e' :: rest)) (.bool true) rest
    have hnull : word? "null".toList ('t' :: 'r' :: 'u' :: 'e' :: rest) = none :=
      word?_of_ne (by decide) _ _
    have hword : word? "true".toList ('t' :: 'r' :: 'u' :: 'e' :: rest) = some rest :=
      word?_append _ _
    refine value?_atom (by decide) ?_
    unfold atom?
    rw [hnull, hword]
    rfl
  | false =>
    change Yields (value? ('f' :: 'a' :: 'l' :: 's' :: 'e' :: rest)) (.bool false) rest
    have hnull : word? "null".toList ('f' :: 'a' :: 'l' :: 's' :: 'e' :: rest) = none :=
      word?_of_ne (by decide) _ _
    have htrue : word? "true".toList ('f' :: 'a' :: 'l' :: 's' :: 'e' :: rest) = none :=
      word?_of_ne (by decide) _ _
    have hword : word? "false".toList ('f' :: 'a' :: 'l' :: 's' :: 'e' :: rest) = some rest :=
      word?_append _ _
    refine value?_atom (by decide) ?_
    unfold atom?
    rw [hnull, htrue, hword]
    rfl

/-- How a number may start. -/
theorem ne_of_number_start {c : Char} (hc : c = '-' ∨ Decimal.isDigit c = true) :
    c ∉ [' ', '\t', '\n', '\r', '"', '[', '\x7b'] ∧ c ≠ 'n' ∧ c ≠ 't' ∧ c ≠ 'f' := by
  rcases hc with rfl | hc
  · decide
  · exact Expression.of_isDigit
      (p := fun c => c ∉ [' ', '\t', '\n', '\r', '"', '[', '\x7b'] ∧ c ≠ 'n' ∧ c ≠ 't' ∧ c ≠ 'f')
      (by decide) hc

theorem isRead_number {n : Number} (h : n.ReadsBack) : IsRead (.number n) := by
  intro rest hrest
  rw [compactChars, toSource]
  have hnumber : number? (n.text ++ rest) = some (some n, rest) := by
    rw [number?_append hrest, h]
    rfl
  obtain ⟨c, cs, hcs, hc⟩ := head_of_number? hnumber
  obtain ⟨hstart, hnull, htrue, hfalse⟩ := ne_of_number_start hc
  rw [hcs] at hnumber ⊢
  refine value?_atom hstart ?_
  have hnull : word? "null".toList (c :: cs) = none := word?_of_ne hnull _ _
  have htrue : word? "true".toList (c :: cs) = none := word?_of_ne htrue _ _
  have hfalse : word? "false".toList (c :: cs) = none := word?_of_ne hfalse _ _
  unfold atom?
  rw [hnull, htrue, hfalse, hnumber]
  rfl

theorem isRead_text (s : String) : IsRead (.text s) := fun _ => value?_text

section

variable {text rest : List Char}

theorem items?_compact {items : List Json} (hne : items ≠ []) (hitems : ∀ x ∈ items, IsRead x)
    {found : Parsed (List Source) text}
    (h : found.rest = [','].intercalate (items.map compactChars) ++ ']' :: rest) :
    Yields (items? found) (found.value.reverse ++ items.map toSource) rest := by
  induction items generalizing found with
  | nil => exact absurd rfl hne
  | cons x xs ih =>
    obtain ⟨hx, hxs⟩ := List.forall_mem_cons.mp hitems
    rcases eq_or_ne xs [] with rfl | hxs'
    · have hvalue : Yields (value? found.rest) x.toSource (']' :: rest) := by
        rw [h, List.map_singleton, List.intercalate_singleton]
        exact hx (closed_cons (.inr (.inl rfl)) rest)
      obtain ⟨hr, hi⟩ := items?_item (by decide) hvalue
      refine ⟨hr, ?_⟩
      rw [hi, if_neg (by decide), if_pos rfl]
      simp only [List.reverse_cons, List.map_cons, List.map_nil]
    · have hvalue : Yields (value? found.rest) x.toSource
          (',' :: ([','].intercalate (xs.map compactChars) ++ ']' :: rest)) := by
        rw [h, List.map_cons, List.intercalate_cons_of_ne_nil (by simpa using hxs')]
        rw [List.append_assoc, List.append_assoc]
        exact hx (closed_cons (.inl rfl) _)
      obtain ⟨hr, hi⟩ := items?_item (by decide) hvalue
      have hrest := @ih hxs' hxs ⟨x.toSource :: found.value, _, hr⟩ rfl
      rw [hi, if_pos rfl]
      simpa only [List.reverse_cons, List.append_assoc, List.singleton_append, List.map_cons]
        using hrest

theorem entries?_compact {entries : List (String × Json)} (hne : entries ≠ [])
    (hentries : ∀ e ∈ entries, IsRead e.2) {found : Parsed (List (Option String × Source)) text}
    (h : found.rest = [','].intercalate (entries.map fun e =>
      textChars e.1 ++ ':' :: e.2.compactChars) ++ '\x7d' :: rest) :
    Yields (entries? found) (found.value.reverse ++ entries.map fun e => (some e.1, e.2.toSource))
      rest := by
  induction entries generalizing found with
  | nil => exact absurd rfl hne
  | cons e es ih =>
    obtain ⟨he, hes⟩ := List.forall_mem_cons.mp hentries
    rcases eq_or_ne es [] with rfl | hes'
    · rw [List.map_singleton, List.intercalate_singleton, List.append_assoc] at h
      obtain ⟨hr, hi⟩ := entries?_entry (by decide) h (he (closed_cons (.inr (.inr rfl)) rest))
      refine ⟨hr, ?_⟩
      rw [hi, if_neg (by decide), if_pos rfl]
      simp only [List.reverse_cons, List.map_cons, List.map_nil]
    · rw [List.map_cons, List.intercalate_cons_of_ne_nil (by simpa using hes'), List.append_assoc,
        List.append_assoc, List.append_assoc] at h
      obtain ⟨hr, hi⟩ := entries?_entry (by decide) h (he (closed_cons (.inl rfl) _))
      have hrest := @ih hes' hes ⟨(some e.1, e.2.toSource) :: found.value, _, hr⟩ rfl
      rw [hi, if_pos rfl]
      simpa only [List.reverse_cons, List.append_assoc, List.singleton_append, List.map_cons]
        using hrest

end

/-- The first of the parts between brackets, and what comes after it. -/
theorem intercalate_append (p : List Char) (ps : List (List Char)) (close : Char)
    (rest : List Char) : ∃ d more, (d = ',' ∨ d = close) ∧
      [','].intercalate (p :: ps) ++ close :: rest = p ++ d :: more := by
  rcases eq_or_ne ps [] with rfl | hps
  · exact ⟨close, rest, .inr rfl, by rw [List.intercalate_singleton]⟩
  · refine ⟨',', [','].intercalate ps ++ close :: rest, .inl rfl, ?_⟩
    rw [List.intercalate_cons_of_ne_nil hps, List.append_assoc, List.append_assoc,
      List.singleton_append]

theorem isRead_array {items : List Json} (h : ∀ x ∈ items, IsRead x) : IsRead (.array items) := by
  intro rest _
  rw [compactChars, toSource, compactItems_eq, itemsToSource_eq]
  rw [List.cons_append, List.cons_append, List.append_assoc, List.singleton_append]
  rcases items with _ | ⟨x, xs⟩
  · exact value?_array_nil
  refine value?_array ?_ fun hnil hfound => ?_
  · obtain ⟨d, more, hd, heq⟩ :=
      intercalate_append x.compactChars (xs.map compactChars) ']' rest
    have hclosed : Closed (d :: more) := closed_cons (hd.imp_right .inl) more
    obtain ⟨hr, hv⟩ := (List.forall_mem_cons.mp h).1 hclosed
    rw [List.map_cons, heq]
    exact head_of_value? hv
  · have hread := items?_compact (List.cons_ne_nil x xs) h hfound
    rwa [hnil] at hread

theorem isRead_object {entries : List (String × Json)} (h : ∀ e ∈ entries, IsRead e.2) :
    IsRead (.object entries) := by
  intro rest _
  rw [compactChars, toSource, compactEntries_eq, entriesToSource_eq]
  rw [List.cons_append, List.cons_append, List.append_assoc, List.singleton_append]
  rcases entries with _ | ⟨e, es⟩
  · exact value?_object_nil
  refine value?_object ?_ fun hnil hfound => ?_
  · obtain ⟨d, more, -, heq⟩ := intercalate_append (textChars e.1 ++ ':' :: e.2.compactChars)
      (es.map fun e => textChars e.1 ++ ':' :: e.2.compactChars) '\x7d' rest
    rw [List.map_cons, heq]
    exact ⟨'"', _, skip_cons (by decide) _, by decide⟩
  · have hread := entries?_compact (List.cons_ne_nil e es) h hfound
    rwa [hnil] at hread

/-- **A value is read back from its text**, if its numbers are. -/
theorem isRead_of_readsBack {j : Json} (h : ∀ n ∈ j.numbers, n.ReadsBack) : IsRead j := by
  induction j using induction with
  | null => exact isRead_null
  | bool b => exact isRead_bool b
  | number n => exact isRead_number (h n (by rw [numbers]; exact List.mem_singleton_self n))
  | text s => exact isRead_text s
  | array items ih =>
    rw [numbers_array] at h
    exact isRead_array fun x hx => ih x hx fun n hn => h n (List.mem_flatMap.mpr ⟨x, hx, hn⟩)
  | object entries ih =>
    rw [numbers_object] at h
    exact isRead_object fun e he => ih e he fun n hn => h n (List.mem_flatMap.mpr ⟨e, he, hn⟩)

/-- **A document is read back as the value it was written from**, if its numbers are. -/
theorem read?_compact {j : Json} (h : ∀ n ∈ j.numbers, n.ReadsBack) :
    read? j.compact = some j.toSource := by
  have hread := isRead_of_readsBack h closed_nil
  have htext : j.compactChars ++ [] = j.compact.toList := by
    rw [List.append_nil, compact, String.toList_ofList]
  rw [htext] at hread
  obtain ⟨hr, hv⟩ := hread
  unfold read?
  rw [hv]
  rfl

/-! ## Numbers of a document -/

/-- Every number of a document has 64 bits, or is a double, or cannot be used. -/
inductive Source.InRange : Source → Prop where
  | null : InRange .null
  | bool (b : Bool) : InRange (.bool b)
  | number {n : Option Number} : (∀ m ∈ n, m.InRange) → InRange (.number n)
  | text (s : Option String) : InRange (.text s)
  | array {items : List Source} : (∀ x ∈ items, InRange x) → InRange (.array items)
  | object {entries : List (Option String × Source)} : (∀ e ∈ entries, InRange e.2) →
      InRange (.object entries)

theorem inRange_atom? {cs rest : List Char} {v : Source} (h : atom? cs = some (v, rest)) :
    v.InRange := by
  simp only [atom?, Option.orElse_eq_orElse, Option.orElse_eq_or, Option.or_eq_some_iff,
    Option.map_eq_some_iff, Prod.mk.injEq] at h
  rcases h with ⟨r, -, rfl, -⟩ | ⟨-, ⟨r, -, rfl, -⟩ | ⟨-, ⟨r, -, rfl, -⟩ | ⟨-, ⟨n, r⟩, h, rfl, -⟩⟩⟩
  · exact .null
  · exact .bool true
  · exact .bool false
  · refine .number fun m hm => ?_
    cases hm
    exact inRange_number? h

/-- What texts shorter than `N` are read as has its numbers in range. -/
def InRangeBelow (N : ℕ) : Prop :=
  ∀ {text : List Char} {p : Parsed Source text}, text.length < N → value? text = some p →
    p.value.InRange

section

variable {N : ℕ} {text : List Char}

theorem inRange_items? (hN : InRangeBelow N) {found p : Parsed (List Source) text}
    (hlt : found.rest.length < N) (hfound : ∀ x ∈ found.value, x.InRange)
    (h : items? found = some p) : ∀ x ∈ p.value, x.InRange := by
  induction hn : found.rest.length using Nat.strong_induction_on generalizing found p with
  | _ n ih =>
    rw [items?] at h
    split at h
    · cases h
    next q hq =>
    have hall : ∀ x ∈ q.value :: found.value, x.InRange :=
      List.forall_mem_cons.mpr ⟨hN hlt hq, hfound⟩
    split at h
    · cases h
    next c rest heq =>
    have hrest : rest.length < found.rest.length := Nat.lt_trans (length_of_skip heq) q.shorter
    dsimp only at h
    split_ifs at h
    · exact @ih rest.length (hn ▸ hrest) ⟨_, rest, _⟩ p (Nat.lt_trans hrest hlt) hall h rfl
    · cases h
      exact fun x hx => hall x (List.mem_reverse.mp hx)

theorem inRange_entries? (hN : InRangeBelow N)
    {found p : Parsed (List (Option String × Source)) text} (hlt : found.rest.length < N)
    (hfound : ∀ e ∈ found.value, e.2.InRange) (h : entries? found = some p) :
    ∀ e ∈ p.value, e.2.InRange := by
  induction hn : found.rest.length using Nat.strong_induction_on generalizing found p with
  | _ n ih =>
    rw [entries?] at h
    split at h
    case h_2 => cases h
    next cs hcs =>
    split at h
    · cases h
    next key hkey =>
    split at h
    case h_2 => cases h
    next body hbody =>
    have hlength : body.length < found.rest.length :=
      Nat.lt_trans (length_of_skip hbody) key.shorter
    dsimp only at h
    split at h
    · cases h
    next q hq =>
    have hall : ∀ e ∈ (key.value, q.value) :: found.value, e.2.InRange :=
      List.forall_mem_cons.mpr ⟨hN (Nat.lt_trans hlength hlt) hq, hfound⟩
    split at h
    · cases h
    next c rest heq =>
    have hrest : rest.length < found.rest.length :=
      Nat.lt_trans (Nat.lt_trans (length_of_skip heq) q.shorter) hlength
    split_ifs at h
    · exact @ih rest.length (hn ▸ hrest) ⟨_, rest, _⟩ p (Nat.lt_trans hrest hlt) hall h rfl
    · cases h
      exact fun e he => hall e (List.mem_reverse.mp he)

theorem inRange_value? {p : Parsed Source text} (h : value? text = some p) : p.value.InRange := by
  have hbelow : InRangeBelow (text.length + 1) := by
    generalize text.length + 1 = N
    induction N with
    | zero => exact fun hlt => absurd hlt (Nat.not_lt_zero _)
    | succ N ih =>
      intro text p hlt h
      rw [value?] at h
      split at h
      · cases h
      next c cs heq =>
      have hcs : cs.length < N := by
        have := length_of_skip heq
        omega
      dsimp only at h
      split_ifs at h
      · obtain ⟨q, -, rfl⟩ := Option.map_eq_some_iff.mp h
        exact .text q.value
      · split at h
        · cases h
        split_ifs at h
        · cases h
          exact .array (by simp)
        · obtain ⟨q, hq, rfl⟩ := Option.map_eq_some_iff.mp h
          exact .array (inRange_items? ih hcs (by simp) hq)
      · split at h
        · cases h
        split_ifs at h
        · cases h
          exact .object (by simp)
        · obtain ⟨q, hq, rfl⟩ := Option.map_eq_some_iff.mp h
          exact .object (inRange_entries? ih hcs (by simp) hq)
      · split at h
        · cases h
        next v rest ha =>
        cases h
        exact inRange_atom? ha
  exact hbelow (Nat.lt_succ_self _) h

theorem inRange_read? {text : String} {x : Source} (h : read? text = some x) : x.InRange := by
  unfold read? at h
  split at h
  · cases h
  next p hp =>
  split_ifs at h
  cases h
  exact inRange_value? hp

end

end TickBacktest.Json
