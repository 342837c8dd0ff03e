import TickBacktest.Proofs.Expression.Denylist
import TickBacktest.Proofs.Expression.Printing

/-! # Printing and reading back

The trees that a strategy can be written with (`Writable`): literals, variables, allowed operations,
signs, calls of indicator functions, and comparisons where they can stand without parentheses, at
the root and as arguments. Every such tree that is not too deep is printed as a text that is
accepted, and read back as the same tree (`accept_display`). -/

namespace TickBacktest.Expression

open Indicator (Function)
open Market (Variable)
open Text

/-! ## Trees that can be written -/

/-- **The trees that can be written**; `comparable` says whether the tree may be a comparison. -/
inductive Writable : (comparable : Bool) → Node → Prop where
  | number {comparable : Bool} {x : Float} : Literal x → Writable comparable (.number x)
  | name {comparable : Bool} (v : Variable) : Writable comparable (.name v.name)
  | binary {comparable : Bool} {op : Operator} {l r : Node} : op ≠ .floorDiv →
      (op = .pow → ∀ s n, l ≠ .signed s n) → Writable false l → Writable false r →
      Writable comparable (.binary op l r)
  | signed {comparable : Bool} {s : Sign} {n : Node} : Writable false n →
      Writable comparable (.signed s n)
  | call {comparable : Bool} (f : Function) {args : List Node} {keywords : List (String × Node)} :
      (∀ n ∈ args, Writable true n) → (∀ p ∈ keywords, Writable true p.2) →
      (∀ p ∈ keywords, Identifier p.1 ∧ forbiddenWord? p.1 = none) →
      (keywords.map Prod.fst).Nodup → Writable comparable (.call (.name f.name) args keywords)
  | compare {first : Node} {links : List (Comparison × Node)} : Writable false first →
      links ≠ [] → (∀ p ∈ links, Writable false p.2) → Writable true (.compare first links)

section

variable {n : Node} {depth : ℕ}

theorem Writable.isOperand (h : Writable false n) : n.IsOperand := by
  rintro first links rfl
  cases h

theorem mem_placed (n : Node) (depth : ℕ) : (depth, n) ∈ n.placed depth := by
  cases n <;> exact List.mem_cons_self

theorem mem_placedList_iff {ns : List Node} {p : ℕ × Node} :
    p ∈ placedList depth ns ↔ ∃ n ∈ ns, p ∈ n.placed depth := by
  induction ns with
  | nil => simp [placedList]
  | cons n ns ih => simp [placedList, ih]

theorem mem_placedKeywords_iff {ns : List (String × Node)} {p : ℕ × Node} :
    p ∈ placedKeywords depth ns ↔ ∃ k ∈ ns, p ∈ k.2.placed depth := by
  induction ns with
  | nil => simp [placedKeywords]
  | cons n ns ih => simp [placedKeywords, ih]

theorem mem_placedLinks_iff {ns : List (Comparison × Node)} {p : ℕ × Node} :
    p ∈ placedLinks depth ns ↔ ∃ k ∈ ns, p ∈ k.2.placed depth := by
  induction ns with
  | nil => simp [placedLinks]
  | cons n ns ih => simp [placedLinks, ih]

theorem identifier_variable (v : Variable) : Identifier v.name := by
  cases v <;> exact ⟨_, _, rfl, by decide, forall_mem_of_all (by decide)⟩

theorem identifier_function (f : Function) : Identifier f.name := by
  cases f <;> exact ⟨_, _, rfl, by decide, forall_mem_of_all (by decide)⟩

/-- The levels that are left at `depth`: two for each level of the tree, as an exponent in
parentheses takes two. -/
def levelsLeft (depth : ℕ) : ℕ := 2 * (maxDepth - depth)

theorem levelsLeft_of_placed (h : ∀ p ∈ n.placed (depth + 1), p.1 ≤ maxDepth) :
    levelsLeft depth = levelsLeft (depth + 1) + 2 := by
  have hdepth : depth + 1 ≤ maxDepth := h _ (mem_placed n (depth + 1))
  unfold levelsLeft
  omega

/-- **A tree that can be written is printed as a phrase** for itself, in two levels for each of its
own. -/
theorem Writable.isWritten {comparable : Bool} (h : Writable comparable n) {depth : ℕ}
    (hdepth : ∀ p ∈ n.placed depth, p.1 ≤ maxDepth) : IsWritten n (levelsLeft depth) := by
  induction h generalizing depth with
  | number hx => exact isWritten_number hx
  | name v => exact isWritten_name (identifier_variable v)
  | binary hop hpow hl hr ihl ihr =>
    rw [Node.placed, List.forall_mem_cons, List.forall_mem_append] at hdepth
    obtain ⟨-, hleft, hright⟩ := hdepth
    rw [levelsLeft_of_placed hleft]
    exact isWritten_binary hop hpow (ihl hleft) hl.isOperand (ihr hright) hr.isOperand
  | signed hn ih =>
    rw [Node.placed, List.forall_mem_cons] at hdepth
    rw [levelsLeft_of_placed hdepth.2]
    exact (isWritten_signed (ih hdepth.2) hn.isOperand).mono (Nat.le_succ _)
  | call f _ _ hkeywords hnodup iha ihk =>
    rw [Node.placed, List.forall_mem_cons, List.forall_mem_append] at hdepth
    obtain ⟨-, hargs, hkeys⟩ := hdepth
    -- an argument is a comparison again, which takes a level on top of those of its operands
    have hargument : ∀ {m : Node}, (∀ p ∈ m.placed (depth + 1), p.1 ≤ maxDepth) →
        IsWritten m (levelsLeft (depth + 1)) → IsArgument m (levelsLeft depth) := by
      intro m hm hwritten
      exact ⟨_, by rw [levelsLeft_of_placed hm]; omega, hwritten⟩
    refine isWritten_call (identifier_function f) (fun m hm => ?_) (fun p hp => ⟨?_, ?_⟩) hnodup
    · have hlevels := fun q hq => hargs q (mem_placedList_iff.mpr ⟨m, hm, hq⟩)
      exact hargument hlevels (iha m hm hlevels)
    · have hlevels := fun q hq => hkeys q (mem_placedKeywords_iff.mpr ⟨p, hp, hq⟩)
      exact hargument hlevels (ihk p hp hlevels)
    · exact (hkeywords p hp).1
  | compare hfirst hne hlinks ihf ihl =>
    rw [Node.placed, List.forall_mem_cons, List.forall_mem_append] at hdepth
    obtain ⟨-, hleft, hright⟩ := hdepth
    refine IsWritten.mono (isWritten_compare (ihf hleft) hfirst.isOperand hne fun p hp => ⟨?_, ?_⟩)
      (by rw [levelsLeft_of_placed hleft]; omega)
    · exact ihl p hp fun q hq => hright q (mem_placedLinks_iff.mpr ⟨p, hp, hq⟩)
    · exact (hlinks p hp).isOperand

/-- The nodes of a tree that can be written are of the kinds that are let through. -/
theorem Writable.allowed {comparable : Bool} (h : Writable comparable n) {depth : ℕ} :
    ∀ p ∈ n.placed depth, p.2.Allowed := by
  induction h generalizing depth with
  | number | name =>
    rw [Node.placed, List.forall_mem_singleton]
    first | trivial | exact ⟨_, rfl⟩
  | binary hop _ _ _ ihl ihr =>
    rw [Node.placed, List.forall_mem_cons, List.forall_mem_append]
    exact ⟨hop, ihl, ihr⟩
  | signed _ ih =>
    rw [Node.placed, List.forall_mem_cons]
    exact ⟨trivial, ih⟩
  | call f _ _ _ _ iha ihk =>
    rw [Node.placed, List.forall_mem_cons, List.forall_mem_append]
    refine ⟨⟨f, rfl⟩, fun p hp => ?_, fun p hp => ?_⟩
    · obtain ⟨m, hm, hp⟩ := mem_placedList_iff.mp hp
      exact iha m hm p hp
    · obtain ⟨k, hk, hp⟩ := mem_placedKeywords_iff.mp hp
      exact ihk k hk p hp
  | compare _ _ _ ihf ihl =>
    rw [Node.placed, List.forall_mem_cons, List.forall_mem_append]
    refine ⟨trivial, ihf, fun p hp => ?_⟩
    obtain ⟨k, hk, hp⟩ := mem_placedLinks_iff.mp hp
    exact ihl k hk p hp

/-! ### No forbidden word -/

theorem apart_of_mantissa {w : List Char} (h : Mantissa w) : ∀ c ∈ w, Apart c := by
  have hdigit : ∀ {c : Char}, Decimal.isDigit c = true → Apart c := of_isDigit (by decide)
  obtain ⟨hds, -⟩ | ⟨hds, hfs, -⟩ := h
  · exact fun c hc => hdigit (hds c hc)
  · intro c hc
    rcases List.mem_append.mp hc with hc | hc
    · exact hdigit (hds c hc)
    · rcases List.mem_cons.mp hc with rfl | hc
      · decide
      · exact hdigit (hfs c hc)

theorem apart_spelling (m : Mark) : ∀ c ∈ m.spelling, Apart c := by
  cases m <;> exact forall_mem_of_all (by decide)

/-- An operator between blanks. -/
theorem clean_infixed {a b : List Char} (m : Mark) (ha : Clean a) (hb : Clean b) :
    Clean (a ++ ' ' :: (m.spelling ++ ' ' :: b)) :=
  clean_append ha (by decide) (clean_append_of_apart (apart_spelling m)
    (clean_cons (by decide) hb))

theorem clean_commaSeparated {ps : List (List Char)} (h : ∀ p ∈ ps, Clean p) :
    Clean (Node.commaSeparated ps) := by
  induction ps with
  | nil => exact clean_nil
  | cons p ps ih =>
    obtain ⟨hp, hps⟩ := List.forall_mem_cons.mp h
    by_cases hne : ps = []
    · subst hne
      simpa [Node.commaSeparated, List.intercalate] using hp
    · rw [commaSeparated_cons hne]
      exact clean_append hp (by decide) (clean_cons (by decide) (ih hps))

theorem clean_variable (v : Variable) : Clean v.name.toList := by
  rw [← forbiddenWord?_eq_none_iff_clean]
  cases v <;> decide +kernel

theorem clean_function (f : Function) : Clean f.name.toList := by
  rw [← forbiddenWord?_eq_none_iff_clean]
  cases f <;> decide +kernel

theorem printList_eq_map (ns : List Node) : Node.printList ns = ns.map Node.print := by
  induction ns with
  | nil => rfl
  | cons n ns ih => rw [Node.printList, ih, List.map_cons]

theorem printKeywords_eq_map (ks : List (String × Node)) :
    Node.printKeywords ks = ks.map fun p => p.1.toList ++ '=' :: p.2.print := by
  induction ks with
  | nil => rfl
  | cons p ks ih => rw [Node.printKeywords, ih, List.map_cons]

theorem clean_append_links {a : List Char} {links : List (Comparison × Node)} (ha : Clean a)
    (hlinks : ∀ p ∈ links, Clean p.2.print) : Clean (a ++ Node.printLinks links) := by
  induction links generalizing a with
  | nil =>
    rw [Node.printLinks, List.append_nil]
    exact ha
  | cons p links ih =>
    obtain ⟨hp, hlinks⟩ := List.forall_mem_cons.mp hlinks
    have hprint : a ++ Node.printLinks (p :: links) =
        (a ++ ' ' :: (p.1.mark.spelling ++ ' ' :: p.2.print)) ++ Node.printLinks links := by
      simp [Node.printLinks, Comparison.spelling_mark]
    rw [hprint]
    exact ih (clean_infixed p.1.mark ha hp) hlinks

/-- **A tree that can be written is printed without a forbidden word.** -/
theorem Writable.clean {comparable : Bool} (h : Writable comparable n) : Clean n.print := by
  induction h with
  | number hx =>
    obtain ⟨⟨m, e, hfinite⟩, -⟩ := hx
    rw [Node.print, ← List.append_nil (Decimal.plainChars _)]
    exact clean_append_of_apart (apart_of_mantissa (mantissa_plainChars hfinite)) clean_nil
  | name v => exact clean_variable v
  | @binary _ op l r _ _ _ _ ihl ihr =>
    have hprint : (Node.binary op l r).print =
        '(' :: (l.print ++ ' ' :: (op.mark.spelling ++ ' ' :: (r.print ++ [')']))) := by
      simp [Node.print, Operator.spelling_mark]
    rw [hprint]
    exact clean_cons (by decide) (clean_infixed op.mark ihl (clean_snoc ihr (by decide)))
  | signed _ ih =>
    rw [Node.print, ← Sign.spelling_mark]
    exact clean_append_of_apart (apart_spelling _) ih
  | @call _ f args keywords _ _ hkeywords _ iha ihk =>
    have hprint : (Node.call (.name f.name) args keywords).print = f.name.toList ++ '(' ::
        (Node.commaSeparated (Node.printList args ++ Node.printKeywords keywords) ++ [')']) := by
      simp [Node.print]
    rw [hprint]
    refine clean_append (clean_function f) (by decide)
      (clean_snoc (clean_commaSeparated ?_) (by decide))
    rw [printList_eq_map, printKeywords_eq_map, List.forall_mem_append]
    constructor
    · exact List.forall_mem_map.mpr iha
    · refine List.forall_mem_map.mpr fun p hp => ?_
      exact clean_append (forbiddenWord?_eq_none_iff_clean.mp (hkeywords p hp).2) (by decide)
        (ihk p hp)
  | compare _ _ _ ihf ihl =>
    rw [Node.print]
    exact clean_append_links ihf ihl

/-! ## Reading back -/

/-- What is read has a character that is no blank. -/
theorem exists_visible_of_parse {text : String} {tree : Node} (h : parse text = .ok tree) :
    ∃ c ∈ text.toList, isBlank c = false := by
  obtain ⟨m, -, ts, ht, hd⟩ := derives_of_parse h
  obtain ⟨t, us, rfl, -⟩ := hd.opens
  obtain ⟨rest, htoken, -⟩ := tokens_iff.mp ht
  by_contra hblank
  push Not at hblank
  rw [trimLeft_eq_nil_iff.mpr fun c hc => by simpa using hblank c hc] at htoken
  cases htoken

/-- The printed text of a tree that can be written is read as this tree. -/
theorem parse_display (h : Writable true n) (hdepth : ∀ p ∈ n.placed 0, p.1 ≤ maxDepth) :
    parse n.display = .ok n := by
  obtain ⟨m, hm, ts, hd, hs⟩ := (h.isWritten hdepth).comparison ends_nil
  rw [List.append_nil] at hs
  refine parse_of_derives (hm.trans (by decide)) (tokens_iff.mpr ?_) hd
  rw [Node.display, String.toList_ofList]
  exact hs

end

/-- **Every tree that can be written is accepted as it is printed, and read back unchanged**, if
none of its nodes lies too deep. -/
theorem accept_display {tree : Node} (h : Writable true tree)
    (hdepth : ∀ p ∈ tree.placed 0, p.1 ≤ maxDepth) :
    accept tree.display = .ok tree ∧ validate tree.display = ⟨true, none, none⟩ := by
  have hparse := parse_display h hdepth
  have hwords : forbiddenWord? tree.display = none := by
    rw [forbiddenWord?_eq_none_iff_clean, Node.display, String.toList_ofList]
    exact h.clean
  have haccept : accept tree.display = .ok tree :=
    accept_ok_iff.mpr ⟨exists_visible_of_parse hparse, forbiddenWord?_eq_none_iff.mp hwords, hparse,
      fun p hp => ⟨hdepth p hp, h.allowed p hp⟩⟩
  exact ⟨haccept, validate_of_accept haccept⟩

/-- The average of the last fourteen prices less the current one, against half a unit. -/
def averageGap : Node :=
  .compare (.binary .sub (.call (.name "SMA") [.name "mid"] [("window", .number 14)]) (.name "mid"))
    [(.gt, .number 0.5)]

theorem accept_display_averageGap : Writable true averageGap ∧
    (∀ p ∈ averageGap.placed 0, p.1 ≤ maxDepth) ∧
    accept averageGap.display = .ok averageGap := by
  have hmid : ∀ {comparable : Bool}, Writable comparable (.name "mid") := .name .mid
  have h14 : Literal 14 := ⟨⟨7881299347898368, -49, by decide +kernel⟩, by decide +kernel⟩
  have hhalf : Literal 0.5 := ⟨⟨4503599627370496, -53, by decide +kernel⟩, by decide +kernel⟩
  have hwindow : Identifier "window" ∧ forbiddenWord? "window" = none :=
    ⟨⟨'w', _, rfl, by decide, forall_mem_of_all (by decide)⟩, by decide +kernel⟩
  have hcall : Writable false (.call (.name "SMA") [.name "mid"] [("window", .number 14)]) :=
    .call .sma (by simpa using hmid) (by simpa using Writable.number h14)
      (by simpa using hwindow) (by decide)
  have h : Writable true averageGap :=
    .compare (.binary (by decide) (fun hop => by cases hop) hcall hmid) (List.cons_ne_nil _ _)
      (by simpa using Writable.number hhalf)
  have hdepth : ∀ p ∈ averageGap.placed 0, p.1 ≤ maxDepth := by
    simp [averageGap, Node.placed, placedList, placedKeywords, placedLinks, maxDepth]
  exact ⟨h, hdepth, (accept_display h hdepth).1⟩

end TickBacktest.Expression
