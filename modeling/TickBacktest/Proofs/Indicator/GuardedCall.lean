import TickBacktest.Proofs.Indicator.AbsentSeries
import TickBacktest.Proofs.Indicator.GuardedWindow
import TickBacktest.Proofs.Scalar.Exact
import TickBacktest.Scalar.Rational

/-! # Places and sizes in a call

A call as a machine with sizes of 64 bits makes it (`guardedCall`): arguments go to the places of
their parameters, the window and the other numbers are taken from their places, and the windowed
functions are the guarded ones. No guard stops it, and what it calculates is the value of the call
(`guardedCall_agrees`).

The ranks of a quantile are the product of its fraction with the last place of the window, rounded
down and up. How this product is read is a parameter of the guarded call. Read exactly, the ranks
lie in the window (`inside_exactRanks`). The product of the machine is rounded itself, and with it
the guarded call is the call unless a guard stops it. -/

namespace TickBacktest.Indicator

open Market (Variable History)

/-! ## Arguments and places -/

/-- Gives a keyword argument to the place of the parameter of its name. -/
def guardedGive (f : Function) (slots : List (Parameter × Option Argument)) (keyword : String)
    (a : Argument) : Guarded Fault (List (Parameter × Option Argument)) := do
  match slots.findIdx? (·.1.name = keyword) with
  | none => .error (.fault (.misuse (.unexpectedKeyword f keyword)))
  | some i =>
    let slot ← entry slots i
    if slot.2.isSome then .error (.fault (.misuse (.repeatedArgument f keyword)))
    else store slots i (slot.1, some a)

/-- Binds the arguments of a call. -/
def guardedBind (f : Function) (args : List Argument) (keywords : List (String × Argument)) :
    Guarded Fault Bound := do
  let ps := f.parameters args.length
  if ps.length < args.length then
    .error (.fault (.misuse (.tooManyArguments f ps.length args.length)))
  else
    let positional := ps.zip (args.map some ++ List.replicate (ps.length - args.length) none)
    let slots ← keywords.foldlM (fun slots k => guardedGive f slots k.1 k.2) positional
    match slots.find? fun (p, given) => given.isNone && p.default.isNone with
    | some (p, _) => .error (.fault (.misuse (.missingArgument f p.name)))
    | none => .ok ⟨f, slots⟩

/-- The number at a place. -/
def guardedNumber (b : Bound) (i : ℕ) : Guarded Fault (Option Float) := do
  let slot ← entry b.slots i
  match slot.2 with
  | none => return slot.1.default
  | some (.scalar value) => return value
  | some (.series v current) =>
    if b.function.isScalar then return some current
    else .error (.fault (.misuse (.numberExpected b.function slot.1.name v)))

/-- The variable at a place. -/
def guardedVariable (b : Bound) (i : ℕ) : Guarded Fault Variable := do
  let slot ← entry b.slots i
  match slot.2 with
  | some (.series v _) => return v
  | _ => .error (.fault (.misuse (.seriesExpected b.function slot.1.name)))

/-- The value of a windowed function, the ranks of a quantile being read as `read` says. -/
def guardedWindowedValue (read : Float → ℕ → ℕ × ℕ) (b : Bound) (window : ℕ) (xs : List Float) :
    Guarded Fault (Option Float) := do
  match b.function with
  | .sma | .mean => return some (mean (← guardedTrailing xs window))
  | .sum => return some (Scalar.sum (← guardedTrailing xs window))
  | .min => return some ((Scalar.least? (← guardedTrailing xs window)).getD Scalar.infinity)
  | .max => return some ((Scalar.greatest? (← guardedTrailing xs window)).getD (-Scalar.infinity))
  | .std => return some (deviation (← guardedTrailing xs window))
  | .ema => guardedExponentialAverage xs window
  | .momentum => guardedMomentum xs window
  | .rsi => return some (← guardedStrength xs window)
  | .percentile =>
    match ← guardedNumber b 2 with
    | none => return none
    | some fraction =>
      if 0 ≤ fraction ∧ fraction ≤ 1 then
        let sorted := (← guardedTrailing xs window).mergeSort Scalar.inOrder
        return some (← guardedQuantile read sorted fraction)
      else .error (.fault (.misuse (.badFraction fraction)))
  | .bbwidth =>
    match ← guardedNumber b 2 with
    | none => return none
    | some spans =>
      let w ← guardedTrailing xs window
      let middle := mean w
      if middle == 0 then .error (.fault (.arithmetic .zeroAverage))
      else return some ((middle + spans * deviation w - (middle - spans * deviation w)) / middle)
  | .atr => guardedAverageRange xs window
  | f@.abs | f@.sqrt | f@.exp | f@.log => .error (.fault (.misuse (.notForSeries f)))

/-- **The value of a call**, with a guard at every place, slice and difference of sizes. -/
def guardedCall (read : Float → ℕ → ℕ × ℕ) (f : Function) (args : List Argument)
    (keywords : List (String × Argument)) (history : History Float) :
    Guarded Fault (Option Float) := do
  let b ← guardedBind f args keywords
  if f.isScalar then
    match ← guardedNumber b 0 with
    | none => return none
    | some x => return scalarValue f x
  else
    let place := (b.slots.findIdx? (·.1.name = "window")).getD 1
    match ← guardedNumber b place with
    | none => return none
    | some x =>
      match window? x with
      | none => .error (.fault (.misuse (.badWindow f x)))
      | some window =>
        let v ← guardedVariable b 0
        match history (if f = .atr then .spread else v) with
        | some xs => guardedWindowedValue read b window xs
        | none =>
          if f.isSoft then return none else .error (.fault (.insufficientData window 0))

/-! ## Binding -/

section

variable {f : Function} {args : List Argument} {keywords : List (String × Argument)} {b : Bound}

/-- Where names are distinct, to change what has a name is to change one place. -/
theorem map_eq_set {slots : List (Parameter × Option Argument)} {k : String} {i : ℕ}
    {give : Parameter × Option Argument → Parameter × Option Argument}
    (hnodup : (slots.map (·.1.name)).Nodup) (hi : i < slots.length) (hk : slots[i].1.name = k)
    (hgive : ∀ s, s.1.name ≠ k → give s = s) : slots.map give = slots.set i (give slots[i]) := by
  have hdistinct := List.pairwise_iff_getElem.mp (List.pairwise_map.mp hnodup)
  refine List.ext_getElem (by rw [List.length_map, List.length_set]) fun j hj _ => ?_
  rw [List.length_map] at hj
  rw [List.getElem_map, List.getElem_set]
  rcases Nat.lt_trichotomy i j with hij | rfl | hij
  · rw [if_neg (by omega)]
    exact hgive _ fun hjk => hdistinct i j hi hj hij (hk.trans hjk.symm)
  · rw [if_pos rfl]
  · rw [if_neg (by omega)]
    exact hgive _ fun hjk => hdistinct j i hj hi hij (hjk.trans hk.symm)

/-- The place of the parameter of a name is the only one that an argument for it changes. -/
theorem guardedGive_eq {ps : List Parameter} (hps : (ps.map (·.name)).Nodup)
    (given : List (String × Argument)) (k : String) (a : Argument) :
    guardedGive f (slotsOf ps given) k a =
      lift ((giveKeyword f (slotsOf ps given) k a).mapError .misuse) := by
  have hnodup : ((slotsOf ps given).map (·.1.name)).Nodup := by
    rwa [slotsOf, List.map_map]
  unfold guardedGive giveKeyword
  generalize slotsOf ps given = slots at hnodup ⊢
  rw [List.find?_eq_bind_findIdx?_getElem?]
  rcases hi : slots.findIdx? (·.1.name = k) with _ | i
  · rw [hi]
    rfl
  · obtain ⟨hlt, hname, -⟩ := List.findIdx?_eq_some_iff_getElem.mp hi
    have hname : slots[i].1.name = k := of_decide_eq_true hname
    have hslot : slots[i]? = some slots[i] := List.getElem?_eq_getElem hlt
    rw [hi, Option.bind_some, hslot]
    dsimp only
    rw [entry_of_some hslot, ok_bind]
    rcases hs : slots[i] with ⟨p, _ | old⟩
    · have hp : p.name = k := by rwa [hs] at hname
      dsimp only
      rw [Option.isSome_none, if_neg Bool.false_ne_true, store_of_lt hlt,
        map_eq_set hnodup hlt hname fun s hs => if_neg hs, hs]
      dsimp only
      rw [if_pos hp]
      rfl
    · rfl

theorem foldlM_guardedGive {ps : List Parameter} (hps : (ps.map (·.name)).Nodup)
    (keywords : List (String × Argument)) : ∀ given : List (String × Argument),
    keywords.foldlM (fun slots k => guardedGive f slots k.1 k.2) (slotsOf ps given) =
      lift ((keywords.foldlM (fun slots k => giveKeyword f slots k.1 k.2)
        (slotsOf ps given)).mapError .misuse) := by
  induction keywords with
  | nil => exact fun _ => rfl
  | cons k keywords ih =>
    intro given
    rw [List.foldlM_cons, List.foldlM_cons, guardedGive_eq hps]
    rcases hgive : giveKeyword f (slotsOf ps given) k.1 k.2 with e | slots
    · rfl
    · obtain ⟨-, rfl⟩ := (giveKeyword_ok_iff f given).mp hgive
      rw [mapError_ok, lift_ok, ok_bind, ok_bind]
      exact ih _

/-- Binding takes no place that is not there. -/
theorem guardedBind_eq : guardedBind f args keywords =
    lift ((bind f args keywords).mapError .misuse) := by
  have hnodup := nodup_parameters f args.length
  unfold guardedBind bind
  dsimp only
  by_cases hlen : (f.parameters args.length).length < args.length
  · rw [if_pos hlen, if_pos hlen]
    rfl
  · rw [if_neg hlen, if_neg hlen, zip_positional hnodup (Nat.not_lt.mp hlen),
      foldlM_guardedGive hnodup]
    generalize keywords.foldlM (fun slots k => giveKeyword f slots k.1 k.2) _ = bound
    rcases bound with e | slots
    · rfl
    · rw [mapError_ok, lift_ok, ok_bind, ok_bind]
      generalize slots.find? _ = missing
      rcases missing with _ | slot
      · rfl
      · rfl

/-! ## What is bound -/

/-- The slot at the place of a parameter. -/
theorem slot_of_bind (hb : bind f args keywords = .ok b) {i : ℕ} {p : Parameter}
    (hp : (f.parameters args.length)[i]? = some p) :
    b.slots[i]? = some (p, f.argument? args keywords p.name) := by
  obtain ⟨-, rfl⟩ := bind_ok_iff_fits.mp hb
  dsimp only
  rw [slotsOf, List.getElem?_map, hp]
  rfl

/-- The number at the place of a parameter is the number of the parameter. -/
theorem guardedNumber_eq (hb : bind f args keywords = .ok b) {i : ℕ} {p : Parameter}
    (hp : (f.parameters args.length)[i]? = some p) (name : String) (hname : p.name = name) :
    guardedNumber b i = lift ((b.number name).mapError .misuse) := by
  have hfunction := function_of_bind hb
  rw [← hname, number_of_bind hb (List.mem_of_getElem? hp)]
  unfold guardedNumber numberGiven
  rw [entry_of_some (slot_of_bind hb hp), ok_bind, hfunction]
  rcases f.argument? args keywords p.name with _ | ⟨v, x⟩ | x
  · rfl
  · dsimp only
    split_ifs
    · rfl
    · rfl
  · rfl

/-- Every function has a first parameter. -/
theorem exists_first (f : Function) (n : ℕ) : ∃ p, (f.parameters n)[0]? = some p := by
  cases f
  case atr =>
    unfold Function.parameters
    split_ifs
    · exact ⟨_, rfl⟩
    · exact ⟨_, rfl⟩
  all_goals exact ⟨_, rfl⟩

theorem guardedVariable_eq (hb : bind f args keywords = .ok b) :
    guardedVariable b 0 = lift (b.variableNamed.mapError .misuse) := by
  obtain ⟨p, hp⟩ := exists_first f args.length
  have hslot := slot_of_bind hb hp
  unfold guardedVariable Bound.variableNamed
  rw [entry_of_some hslot, ok_bind]
  rcases hslots : b.slots with _ | ⟨slot, slots⟩
  · rw [hslots] at hslot
    cases hslot
  · rw [hslots] at hslot
    obtain rfl : slot = (p, f.argument? args keywords p.name) := Option.some_inj.mp hslot
    rcases f.argument? args keywords p.name with _ | ⟨v, x⟩ | x
    · rfl
    · rfl
    · rfl

/-- A windowed function finds its window by name. -/
theorem place_of_window (hb : bind f args keywords = .ok b) (hf : f.isWindowed) :
    ∃ p, (f.parameters args.length)[(b.slots.findIdx? (·.1.name = "window")).getD 1]? = some p ∧
      p.name = "window" := by
  obtain ⟨-, rfl⟩ := bind_ok_iff_fits.mp hb
  obtain ⟨q, hq, hname, -⟩ := window_parameter hf args.length
  dsimp only
  rw [slotsOf, List.findIdx?_map]
  rcases hi : (f.parameters args.length).findIdx? _ with _ | i
  · have hnone := List.findIdx?_eq_none_iff.mp hi q hq
    exact absurd hname (of_decide_eq_false hnone)
  · obtain ⟨hlt, hp, -⟩ := List.findIdx?_eq_some_iff_getElem.mp hi
    exact ⟨_, List.getElem?_eq_getElem hlt, of_decide_eq_true hp⟩

end

/-! ## Windowed functions -/

section

variable {f : Function} {args : List Argument} {keywords : List (String × Argument)} {b : Bound}
  {read : Float → ℕ → ℕ × ℕ} {window : ℕ} {xs : List Float}

/-- What is made of the trailing values alone needs no guard. -/
theorem guardedTrailing_map (g : List Float → Float) :
    (guardedTrailing xs window >>= fun w => pure (some (g w))) =
      lift ((trailing xs window >>= fun w => pure (g w)) >>= fun y => pure (some y)) := by
  rw [guardedTrailing_eq]
  rcases trailing xs window with fault | w
  · rfl
  · rfl

/-- A windowed function needs no guard, a quantile set aside. -/
theorem guardedWindowedValue_eq (hb : bind f args keywords = .ok b) (hf : f ≠ .percentile)
    (hxs : xs.length < Decimal.maxSize) (hwindow : window ≤ Decimal.maxSize) :
    guardedWindowedValue read b window xs = lift (windowedValue b window xs) := by
  obtain rfl := function_of_bind hb
  unfold guardedWindowedValue windowedValue
  rcases hfunction : b.function
  case percentile => exact absurd hfunction hf
  case ema =>
    dsimp only
    rw [guardedExponentialAverage_eq]
    rfl
  case atr =>
    dsimp only
    rw [guardedAverageRange_eq]
    rfl
  case momentum =>
    dsimp only
    rw [guardedMomentum_eq hxs.le]
  case rsi =>
    dsimp only
    rw [guardedStrength_eq hxs hwindow, lift_bind]
    rfl
  case bbwidth =>
    have hp : (b.function.parameters args.length)[2]? =
        some (Function.optionalParameter "num_std" 2) := by
      rw [hfunction]
      rfl
    dsimp only
    rw [guardedNumber_eq hb hp "num_std" rfl, lift_bind]
    refine congrArg _ (funext fun spans => ?_)
    rcases spans with _ | spans
    · rfl
    · unfold bandWidth
      dsimp only
      rw [guardedTrailing_eq]
      rcases trailing xs window with fault | w
      · rfl
      · rw [lift_ok, ok_bind, ok_bind]
        split_ifs
        · rfl
        · rfl
  case sma | mean => exact guardedTrailing_map mean
  case sum => exact guardedTrailing_map Scalar.sum
  case min => exact guardedTrailing_map fun w => (Scalar.least? w).getD Scalar.infinity
  case max => exact guardedTrailing_map fun w => (Scalar.greatest? w).getD (-Scalar.infinity)
  case std => exact guardedTrailing_map deviation
  all_goals rfl

/-- **The guarded value of a call agrees with its value**: no guard is needed, or all that needs one
are the ranks of a quantile, in a window that is not empty and at a fraction from 0 to 1. -/
inductive Agrees (read : Float → ℕ → ℕ × ℕ) (f : Function) :
    Guarded Fault (Option Float) → Except Fault (Option Float) → Prop where
  | lifted (x : Except Fault (Option Float)) : Agrees read f (lift x) x
  | quantile {sorted : List Float} {fraction : Float} (hf : f = .percentile)
      (hsorted : 0 < sorted.length) (hzero : 0 ≤ fraction) (hone : fraction ≤ 1) :
      Agrees read f (guardedQuantile read sorted fraction >>= fun x => pure (some x))
        (.ok (some (quantile sorted fraction)))

/-- A quantile needs no guard before it comes to its ranks. -/
theorem guardedPercentile_agrees (hb : bind .percentile args keywords = .ok b)
    (hwindow : 0 < window) : Agrees read .percentile (guardedWindowedValue read b window xs)
      (windowedValue b window xs) := by
  have hp : (Function.percentile.parameters args.length)[2]? =
      some (Function.requiredParameter "pct") := rfl
  unfold guardedWindowedValue windowedValue
  rw [function_of_bind hb]
  dsimp only
  rw [guardedNumber_eq hb hp "pct" rfl]
  rcases (b.number "pct").mapError Fault.misuse with fault | _ | fraction
  · exact .lifted (.error fault)
  · exact .lifted (.ok none)
  · rw [lift_ok, ok_bind, ok_bind]
    dsimp only
    by_cases hfraction : 0 ≤ fraction ∧ fraction ≤ 1
    · rw [if_pos hfraction, if_pos hfraction, guardedTrailing_eq]
      unfold percentile
      by_cases hlen : xs.length < window
      · rw [trailing_of_lt hlen]
        exact .lifted (.error _)
      · have hlen : window ≤ xs.length := Nat.not_lt.mp hlen
        have hsorted : 0 < ((xs.rtake window).mergeSort Scalar.inOrder).length := by
          rw [List.length_mergeSort, Market.length_rtake]
          omega
        rw [trailing_of_le hlen]
        exact .quantile rfl hsorted hfraction.1 hfraction.2
    · rw [if_neg hfraction, if_neg hfraction]
      exact .lifted (.error _)

theorem guardedWindowedValue_agrees (hb : bind f args keywords = .ok b) (hpos : 0 < window)
    (hwindow : window ≤ Decimal.maxSize) (hxs : xs.length < Decimal.maxSize) :
    Agrees read f (guardedWindowedValue read b window xs) (windowedValue b window xs) := by
  by_cases hf : f = .percentile
  · subst hf
    exact guardedPercentile_agrees hb hpos
  · rw [guardedWindowedValue_eq hb hf hxs hwindow]
    exact .lifted _

end

/-! ## Calls -/

/-- Every series of a history is shorter than so much. -/
def Shorter (history : History Float) (n : ℕ) : Prop :=
  ∀ v xs, history v = some xs → xs.length < n

section

variable {f : Function} {args : List Argument} {keywords : List (String × Argument)}
  {history : History Float} {read : Float → ℕ → ℕ × ℕ}

theorem guardedCall_agrees (hshort : Shorter history Decimal.maxSize) :
    Agrees read f (guardedCall read f args keywords history) (call f args keywords history) := by
  unfold guardedCall call
  rw [guardedBind_eq]
  rcases hb : bind f args keywords with e | b
  · exact .lifted (.error (.misuse e))
  · rw [mapError_ok, lift_ok, ok_bind, ok_bind]
    obtain rfl := function_of_bind hb
    unfold Bound.value
    by_cases hscalar : b.function.isScalar = true
    · have hp : (b.function.parameters args.length)[0]? =
          some (Function.requiredParameter "x") := by
        rcases hfunction : b.function
        case abs | sqrt | exp | log => rfl
        all_goals
          rw [hfunction] at hscalar
          cases hscalar
      rw [if_pos hscalar, if_pos hscalar, guardedNumber_eq hb hp "x" rfl]
      rcases (b.number "x").mapError Fault.misuse with fault | _ | x
      · exact .lifted (.error fault)
      · exact .lifted (.ok none)
      · exact .lifted (.ok (scalarValue b.function x))
    · obtain ⟨p, hp, hname⟩ := place_of_window hb (isWindowed_iff.mpr hscalar)
      rw [if_neg hscalar, if_neg hscalar]
      dsimp only
      rw [guardedNumber_eq hb hp "window" hname]
      rcases (b.number "window").mapError Fault.misuse with fault | _ | x
      · exact .lifted (.error fault)
      · exact .lifted (.ok none)
      · rw [lift_ok, ok_bind, ok_bind]
        dsimp only
        rcases hx : window? x with _ | window
        · exact .lifted (.error _)
        · dsimp only
          rw [guardedVariable_eq hb]
          rcases b.variableNamed.mapError Fault.misuse with fault | v
          · exact .lifted (.error fault)
          · rw [lift_ok, ok_bind, ok_bind]
            rcases hxs : history (if b.function = .atr then .spread else v) with _ | xs
            · dsimp only
              split_ifs
              · exact .lifted (.ok none)
              · exact .lifted (.error _)
            · exact guardedWindowedValue_agrees hb (window_pos hx) (le_maxSize_of_window? hx)
                (hshort _ xs hxs)

/-! ## Ranks -/

/-- The ranks of a fraction when its product with the last place is exact. -/
def exactRanks (fraction : Float) (last : ℕ) : ℕ × ℕ := ranks (Doubles.exactValue fraction) last

/-- **The exact ranks of a fraction from 0 to 1 lie in the window.** -/
theorem inside_exactRanks {fraction : Float} (hzero : 0 ≤ fraction) (hone : fraction ≤ 1)
    {length : ℕ} (hlength : 0 < length) :
    Inside (exactRanks fraction (length - 1)) length := by
  have hvalue := Doubles.exactValue_nonneg hzero
  have hlast : ((0 : ℕ) : ℚ) ≤ (length - 1 : ℕ) := Nat.cast_le.mpr (Nat.zero_le _)
  have hle : Doubles.exactValue fraction * (length - 1 : ℕ) ≤ (length - 1 : ℕ) :=
    mul_le_of_le_one_left hlast (Doubles.exactValue_le_one hone)
  have hordered : (Doubles.exactValue fraction * (length - 1 : ℕ)).floor ≤
      (Doubles.exactValue fraction * (length - 1 : ℕ)).ceil :=
    Int.cast_le.mp ((Rat.floor_le _).trans Rat.le_ceil)
  have hupper : (Doubles.exactValue fraction * (length - 1 : ℕ)).ceil ≤ (length - 1 : ℕ) :=
    Rat.ceil_le_iff.mpr hle
  refine ⟨Int.toNat_le_toNat hordered, ?_⟩
  show (Doubles.exactValue fraction * (length - 1 : ℕ)).ceil.toNat < length
  omega

/-- What stops a quantile is a guard. -/
theorem overrun_of_guardedQuantile {sorted : List Float} {fraction : Float} {h : Halt Fault}
    (he : guardedQuantile read sorted fraction = .error h) : ∃ o, h = .overrun o := by
  unfold guardedQuantile at he
  rcases bind_error_iff.mp he with he | ⟨last, -, he⟩
  · exact overrun_of_minus he
  · rcases bind_error_iff.mp he with he | ⟨lower, -, he⟩
    · exact overrun_of_entry he
    · exact overrun_of_entry (bind_pure_error_iff.mp he)

section

variable {r : Guarded Fault (Option Float)} {x : Except Fault (Option Float)}

theorem Agrees.eq_lift (h : Agrees read f r x) (hf : f ≠ .percentile) : r = lift x := by
  cases h with
  | lifted => rfl
  | quantile hf' => exact absurd hf' hf

/-- With exact ranks no guard stops a quantile. -/
theorem Agrees.ne_overrun (h : Agrees exactRanks f r x) (o : Overrun) :
    r ≠ .error (.overrun o) := by
  cases h with
  | lifted => exact lift_ne_overrun x o
  | quantile _ hsorted hzero hone =>
    obtain ⟨y, hy⟩ := guardedQuantile_of_inside (inside_exactRanks hzero hone hsorted)
    rw [hy]
    exact fun h => (by cases h)

/-- With the ranks of the machine the quantile is what no guard stops. -/
theorem Agrees.eq_lift_of_ne_overrun (h : Agrees ranks f r x)
    (hr : ∀ o, r ≠ .error (.overrun o)) : r = lift x := by
  cases h with
  | lifted => rfl
  | @quantile sorted fraction =>
    rcases hq : guardedQuantile ranks sorted fraction with e | y
    · obtain ⟨o, rfl⟩ := overrun_of_guardedQuantile hq
      rw [hq] at hr
      exact absurd rfl (hr o)
    · rw [ok_bind, quantile_of_guarded hq]
      rfl

end

/-- **No guard stops a call.** On series shorter than `2 ^ 63`, whatever the function and its
arguments are, no place is outside of its list, no slice starts after the end of its series, and no
difference of sizes is negative, with the ranks of a quantile read exactly: these are places of its
window, the lower not above the upper. What is calculated with the guards is the value of the call,
for a quantile with the ranks of the machine as long as no guard stops it there. -/
theorem call_in_range (f : Function) (args : List Argument) (keywords : List (String × Argument))
    (history : History Float) (hshort : Shorter history (2 ^ 63)) :
    (∀ o, guardedCall exactRanks f args keywords history ≠ .error (.overrun o)) ∧
      (∀ (fraction : Float) (length : ℕ), 0 ≤ fraction → fraction ≤ 1 → 0 < length →
        Inside (exactRanks fraction (length - 1)) length) ∧
      (f ≠ .percentile → ∀ read, guardedCall read f args keywords history =
        lift (call f args keywords history)) ∧
      ((∀ o, guardedCall ranks f args keywords history ≠ .error (.overrun o)) →
        guardedCall ranks f args keywords history = lift (call f args keywords history)) := by
  have hsizes : Shorter history Decimal.maxSize :=
    fun v xs hxs => (hshort v xs hxs).trans (by decide)
  refine ⟨?_, fun _ _ hzero hone => inside_exactRanks hzero hone, ?_, ?_⟩
  · exact (guardedCall_agrees hsizes).ne_overrun
  · exact fun hf read => (guardedCall_agrees hsizes).eq_lift hf
  · exact (guardedCall_agrees hsizes).eq_lift_of_ne_overrun

end

/-- Three prices, oldest first. -/
def threePrices : History Float
  | .mid => some [3, 1, 2]
  | _ => none

theorem shorter_threePrices : Shorter threePrices (2 ^ 63) := by
  intro v xs hxs
  cases v
  case mid =>
    cases hxs
    decide
  all_goals cases hxs

/-- The highest of three prices as a quantile, and the relative strength over the largest window,
which lacks data: one value more than this window is no size. -/
theorem call_in_range_threePrices : Shorter threePrices (2 ^ 63) ∧
    (∀ o, guardedCall exactRanks .percentile
      [.series .mid 2, .scalar (some 3), .scalar (some 1)] [] threePrices ≠ .error (.overrun o)) ∧
    guardedCall exactRanks .rsi [.series .mid 2, .scalar (some 18446744073709551616)] []
      threePrices = .error (.fault (.insufficientData Decimal.maxSize 3)) := by
  refine ⟨shorter_threePrices, (call_in_range .percentile _ [] threePrices shorter_threePrices).1,
    ?_⟩
  rw [(call_in_range .rsi _ [] threePrices shorter_threePrices).2.2.1 (by decide) exactRanks]
  rfl

end TickBacktest.Indicator
