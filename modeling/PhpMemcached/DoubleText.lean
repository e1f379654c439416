import PhpMemcached.Client
import PhpMemcached.GFmt
import PhpMemcached.Lib.Numeral

/-!
# The text of a finite double

* `expWidth_spec`      the loop for the width of the exponent stops at its own test;
* `natVal_expDigits`   the loop that prints it prints all its digits;
* `gFmtPoint_eq`       the layout with a point among the digits, or with zeros behind them;
* `gFmt_reads`         every layout is a numeral of the number the digits and the point stand for;
* `gFmt_fits`          it has room in a buffer of 40 bytes.
-/

namespace PhpMemcached
open Ascii

/-! ## the exponent -/

/-- `j` is the number of digits and `k` the weight of the first, if there is enough fuel -/
structure ExpWidth (decpt : Nat) (r : Nat × Nat) : Prop where
  two : 2 ≤ r.1
  weight : r.2 = 10 ^ (r.1 - 1)
  stops : decpt < 10 * r.2
  short : r.1 = 2 ∨ r.2 ≤ decpt

theorem expWidth_spec {fuel j k decpt : Nat} (hfuel : decpt < 10 * k + fuel) (hj : 2 ≤ j)
    (hk : k = 10 ^ (j - 1)) (hshort : j = 2 ∨ k ≤ decpt) :
    ExpWidth decpt (expWidth fuel j k decpt) := by
  induction fuel generalizing j k with
  | zero => exact ⟨hj, hk, hfuel, hshort⟩
  | succ fuel ih =>
    unfold expWidth
    split
    · rename_i hle
      have hpos : 0 < k := hk ▸ Nat.pow_pos (by decide)
      have hk' : k * 10 = 10 ^ (j + 1 - 1) := by
        rw [hk, ← Nat.pow_succ]
        congr 1
        omega
      exact ih (by omega) (by omega) hk' (.inr (by omega))
    · rename_i hlt
      exact ⟨hj, hk, Nat.not_le.mp hlt, hshort⟩

theorem expWidth_start (decpt : Nat) : ExpWidth decpt (expWidth decpt 2 10 decpt) :=
  expWidth_spec (by omega) (Nat.le_refl 2) rfl (.inl rfl)

theorem length_expDigits (j k decpt : Nat) : (expDigits j k decpt).length = j := by
  induction j generalizing decpt with
  | zero => rfl
  | succ j ih => exact congrArg (· + 1) (ih _)

theorem allDigits_expDigits {j k decpt : Nat} (h : decpt < 10 * k) :
    AllDigits (expDigits j k decpt) := by
  induction j generalizing decpt with
  | zero => exact fun _ hb => by cases hb
  | succ j ih =>
    have hpos : 0 < k := by omega
    have hdigit : decpt / k < 10 := Nat.div_lt_of_lt_mul (by rwa [Nat.mul_comm])
    have hrest : (decpt - decpt / k * k) * 10 < 10 * k := by
      have hmod := Nat.mod_lt decpt hpos
      have hdiv := Nat.div_add_mod' decpt k
      omega
    intro b hb
    rcases List.mem_cons.mp hb with rfl | hb
    · rw [Nat.add_comm]
      exact isDigit_digit hdigit
    · exact ih hrest b hb

/-- `j` digits of `decpt / k`, from the one before the point on -/
theorem natVal_expDigits {j k decpt : Nat} (h : decpt < 10 * k) :
    natVal (expDigits (j + 1) k decpt) = decpt * 10 ^ j / k := by
  have hpos : 0 < k := by omega
  have hdigit : decpt / k < 10 := Nat.div_lt_of_lt_mul (by rwa [Nat.mul_comm])
  have hval : (UInt8.ofNat (decpt / k + 48)).toNat - 48 = decpt / k := by
    rw [Nat.add_comm, digit_toNat hdigit, Nat.add_sub_cancel_left]
  induction j generalizing decpt with
  | zero =>
    show 10 * 0 + ((UInt8.ofNat (decpt / k + 48)).toNat - 48) = _
    rw [hval, Nat.mul_zero, Nat.zero_add, Nat.pow_zero, Nat.mul_one]
  | succ j ih =>
    have hmod : decpt - decpt / k * k = decpt % k := by
      have hdiv := Nat.div_add_mod' decpt k
      omega
    have hlt : decpt % k < k := Nat.mod_lt _ hpos
    have hdigit' : decpt % k * 10 / k < 10 := Nat.div_lt_of_lt_mul (by omega)
    have hval' : (UInt8.ofNat (decpt % k * 10 / k + 48)).toNat - 48 = decpt % k * 10 / k := by
      rw [Nat.add_comm, digit_toNat hdigit', Nat.add_sub_cancel_left]
    have hstep : expDigits (j + 1 + 1) k decpt =
        [UInt8.ofNat (decpt / k + 48)] ++ expDigits (j + 1) k (decpt % k * 10) := by
      rw [← hmod]
      rfl
    have hone : natVal [UInt8.ofNat (decpt / k + 48)] = decpt / k := by
      show 10 * 0 + _ = _
      rw [hval, Nat.mul_zero, Nat.zero_add]
    have hsplit : decpt * 10 ^ (j + 1) =
        decpt % k * 10 * 10 ^ j + decpt / k * 10 ^ (j + 1) * k := by
      calc decpt * 10 ^ (j + 1) = (decpt / k * k + decpt % k) * 10 ^ (j + 1) := by
            rw [Nat.div_add_mod' decpt k]
        _ = decpt % k * 10 * 10 ^ j + decpt / k * 10 ^ (j + 1) * k := by
            rw [Nat.pow_succ]
            ring
    rw [hstep, natVal_concat, hone, length_expDigits, ih (by omega) hdigit' hval', hsplit,
      Nat.add_mul_div_right _ _ hpos, Nat.add_comm]

/-- the digits of the exponent are the exponent -/
theorem natVal_exponent (decpt : Nat) :
    let (j, k) := expWidth decpt 2 10 decpt
    natVal (expDigits j k decpt) = decpt := by
  have hspec := expWidth_start decpt
  generalize expWidth decpt 2 10 decpt = r at hspec ⊢
  obtain ⟨j, k⟩ := r
  obtain ⟨htwo, hweight, hstops, -⟩ := hspec
  dsimp only at htwo hweight hstops ⊢
  obtain ⟨j, rfl⟩ : ∃ j', j = j' + 1 := ⟨j - 1, by omega⟩
  rw [natVal_expDigits hstops, hweight, Nat.add_sub_cancel,
    Nat.mul_div_cancel _ (Nat.pow_pos (by decide))]

/-! ## the layouts -/

/-- the point stands among the digits, or zeros stand behind them -/
theorem gFmtPoint_eq (s : Bytes) (decpt : Int) :
    gFmtPoint s decpt =
      if 0 < decpt ∧ decpt < s.length then s.take decpt.toNat ++ 46 :: s.drop decpt.toNat
      else s ++ List.replicate (decpt - s.length).toNat 48 := by
  induction s generalizing decpt with
  | nil =>
    rw [if_neg (by rw [List.length_nil]; omega), List.length_nil, List.nil_append]
    exact congrArg (fun n => List.replicate n 48) (by omega)
  | cons c s ih =>
    unfold gFmtPoint
    rw [ih, List.length_cons]
    by_cases hone : decpt - 1 = 0 ∧ s ≠ []
    · obtain ⟨hzero, hne⟩ := hone
      have hpos := List.length_pos_iff.mpr hne
      obtain rfl : decpt = 1 := by omega
      rw [if_pos ⟨rfl, hne⟩, if_neg (by omega), if_pos (by omega)]
      have hnone : ((1 : Int) - 1 - s.length).toNat = 0 := by omega
      rw [hnone, List.replicate_zero, List.append_nil]
      rfl
    · rw [if_neg hone]
      by_cases hin : 0 < decpt - 1 ∧ decpt - 1 < s.length
      · have htake : decpt.toNat = (decpt - 1).toNat + 1 := by omega
        rw [if_pos hin, if_pos (by omega), htake]
        rfl
      · have hout : ¬ (0 < decpt ∧ decpt < ((s.length + 1 : Nat) : Int)) := by
          rintro ⟨hpos, hlt⟩
          refine hone ⟨by omega, ?_⟩
          rintro rfl
          rw [List.length_nil] at hlt
          omega
        rw [if_neg hin, if_neg hout]
        have hzeros : (decpt - ((s.length + 1 : Nat) : Int)).toNat =
            (decpt - 1 - s.length).toNat := by omega
        rw [hzeros]
        rfl

theorem length_gFmtPoint_le (s : Bytes) {decpt : Int} (h : decpt ≤ s.length + 5) :
    (gFmtPoint s decpt).length ≤ s.length + 5 := by
  rw [gFmtPoint_eq]
  split
  · rw [List.length_append, List.length_take, List.length_cons, List.length_drop]
    omega
  · rw [List.length_append, List.length_replicate]
    omega

theorem length_gFmtExp_le (s : Bytes) {decpt : Int} (h : (decpt - 1).natAbs < 1000) :
    (gFmtExp s decpt).length ≤ s.length + 6 := by
  unfold gFmtExp
  dsimp only
  obtain ⟨htwo, hweight, -, hshort⟩ := expWidth_start (decpt - 1).natAbs
  have hthree : (expWidth (decpt - 1).natAbs 2 10 (decpt - 1).natAbs).1 ≤ 3 := by
    rcases hshort with htwo' | hle
    · omega
    · by_contra hfour
      have hpow : 10 ^ 3 ≤ 10 ^ ((expWidth (decpt - 1).natAbs 2 10 (decpt - 1).natAbs).1 - 1) :=
        Nat.pow_le_pow_right (by decide) (by omega)
      omega
  have hpoint : (if s.drop 1 = [] then [] else 46 :: s.drop 1).length ≤ s.length := by
    split
    · exact Nat.zero_le _
    · rename_i hne
      have := List.length_pos_iff.mpr hne
      rw [List.length_drop] at this
      rw [List.length_cons, List.length_drop]
      omega
  simp only [List.length_append, length_expDigits, List.length_take, List.length_cons,
    List.length_nil]
  omega

/-! ## what is read -/

/-- the point is left out if no digit follows it -/
theorem readFraction_optional {ds r : Bytes} (hds : AllDigits ds) (hr : NoDigit r)
    (hpoint : r.head? ≠ some 46) :
    readFraction ((if ds = [] then [] else 46 :: ds) ++ r) = (ds, r) := by
  split
  · rename_i hnil
    subst hnil
    exact if_neg hpoint
  · exact readFraction_point hds hr

theorem readMagnitude_gFmtExp {s r : Bytes} (hne : s ≠ []) (hs : AllDigits s) (hr : Ends r)
    (decpt : Int) :
    readMagnitude (gFmtExp s decpt ++ r) = some (scaled s (decpt - s.length), r) := by
  have hwidth := natVal_exponent (decpt - 1).natAbs
  have hspec := expWidth_start (decpt - 1).natAbs
  unfold gFmtExp
  dsimp only at hwidth ⊢
  generalize expWidth (decpt - 1).natAbs 2 10 (decpt - 1).natAbs = w at hwidth hspec ⊢
  obtain ⟨j, k⟩ := w
  obtain ⟨htwo, -, hstops, -⟩ := hspec
  dsimp only at htwo hstops hwidth ⊢
  obtain ⟨c, ds, rfl⟩ : ∃ c ds, s = c :: ds := List.exists_cons_of_ne_nil hne
  have hdigits : AllDigits ds := fun b hb => hs b (List.mem_cons_of_mem _ hb)
  have hone : AllDigits [c] := fun b hb => hs b (by rw [List.mem_singleton.mp hb]; exact .head _)
  have hexpNe : expDigits j k (decpt - 1).natAbs ≠ [] := by
    intro hnil
    have hlen := length_expDigits j k (decpt - 1).natAbs
    rw [hnil, List.length_nil] at hlen
    omega
  -- the exponent and what follows it
  have hexp := readExponent_digits (decide (decpt - 1 < 0)) hexpNe (allDigits_expDigits hstops)
    hr.noDigit
  have hvalue : signed (decide (decpt - 1 < 0)) (natVal (expDigits j k (decpt - 1).natAbs)) =
      decpt - 1 := by
    rw [hwidth, signed]
    split
    · rename_i hneg
      have := of_decide_eq_true hneg
      omega
    · rename_i hneg
      have : ¬ decpt - 1 < 0 := fun h => hneg (decide_eq_true h)
      omega
  rw [hvalue] at hexp
  have htail : NoDigit (101 :: (if decide (decpt - 1 < 0) then 45 else 43) ::
      (expDigits j k (decpt - 1).natAbs ++ r)) := by
    rintro b ⟨⟩
    decide
  have hfrac := readFraction_optional hdigits htail fun hpoint => by cases hpoint
  have ht : NoDigit ((if ds = [] then [] else 46 :: ds) ++
      101 :: (if decide (decpt - 1 < 0) then 45 else 43) ::
        (expDigits j k (decpt - 1).natAbs ++ r)) := by
    split
    · exact htail
    · rintro b ⟨⟩
      decide
  have hread := readMagnitude_eq hone ht hfrac hexp (List.cons_ne_nil _ _)
  have hweight : decpt - 1 - (ds.length : Int) = decpt - ((c :: ds).length : Nat) := by
    rw [List.length_cons]
    omega
  rw [hweight] at hread
  simpa only [List.take_succ_cons, List.take_zero, List.drop_succ_cons, List.drop_zero,
    List.append_assoc, List.cons_append, List.nil_append, decide_eq_true_eq] using hread

/-- the three zeros at most behind a point in front of the digits -/
theorem readMagnitude_leading {s r : Bytes} (hne : s ≠ []) (hs : AllDigits s) (hr : Ends r)
    {decpt : Int} (hdecpt : decpt ≤ 0) :
    readMagnitude (46 :: (List.replicate (-decpt).toNat 48 ++ s) ++ r) =
      some (scaled s (decpt - s.length), r) := by
  have hdigits : AllDigits (List.replicate (-decpt).toNat 48 ++ s) := (allDigits_zeros _).append hs
  have hpoint : NoDigit (46 :: (List.replicate (-decpt).toNat 48 ++ s ++ r)) := by
    rintro b ⟨⟩
    decide
  have hread := readMagnitude_eq (show AllDigits [] from fun _ hb => by cases hb) hpoint
    (readFraction_point hdigits hr.noDigit) (readExponent_of_ends hr)
    (List.append_ne_nil_of_right_ne_nil _ (List.append_ne_nil_of_right_ne_nil _ hne))
  have hweight : (0 : Int) - ((List.replicate (-decpt).toNat 48 ++ s).length : Nat) =
      decpt - s.length := by
    rw [List.length_append, List.length_replicate]
    omega
  rw [List.nil_append, List.nil_append, scaled_zeros_append, hweight] at hread
  exact hread

theorem readMagnitude_gFmtPoint {s r : Bytes} (hne : s ≠ []) (hs : AllDigits s) (hr : Ends r)
    {decpt : Int} (hpos : 0 < decpt) :
    readMagnitude (gFmtPoint s decpt ++ r) = some (scaled s (decpt - s.length), r) := by
  rw [gFmtPoint_eq]
  split
  · rename_i hin
    have hsplit := List.take_append_drop decpt.toNat s
    have hparts := AllDigits.of_append (hsplit.symm ▸ hs)
    have hpoint : NoDigit (46 :: (s.drop decpt.toNat ++ r)) := by
      rintro b ⟨⟩
      decide
    have hread := readMagnitude_eq hparts.1 hpoint
      (readFraction_point hparts.2 hr.noDigit) (readExponent_of_ends hr) (hsplit.symm ▸ hne)
    have hweight : (0 : Int) - ((s.drop decpt.toNat).length : Nat) = decpt - s.length := by
      rw [List.length_drop]
      omega
    rw [hsplit, hweight] at hread
    rw [List.append_assoc]
    exact hread
  · rename_i hout
    have hdigits : AllDigits (s ++ List.replicate (decpt - s.length).toNat 48) :=
      hs.append (allDigits_zeros _)
    have hread := readMagnitude_eq hdigits hr.noDigit (readFraction_of_ends hr)
      (readExponent_of_ends hr)
      (List.append_ne_nil_of_left_ne_nil (List.append_ne_nil_of_left_ne_nil hne _) _)
    have hweight : (0 : Int) - (([] : Bytes).length : Nat) + ((decpt - s.length).toNat : Nat) =
        decpt - s.length := by
      rw [List.length_nil]
      omega
    rw [List.append_nil, scaled_append_zeros, hweight] at hread
    exact hread

/-! ## the text -/

/-- digits that `zend_dtoa` may leave for a finite number -/
structure FiniteDigits (digits : Bytes) (decpt : Int) : Prop where
  ne_nil : digits ≠ []
  allDigits : AllDigits digits
  decpt_ne : decpt ≠ 9999

/-- **Whatever the layout, the text is a numeral of the sign, the digits and the position of the
point**, and ends where the text ends. -/
theorem gFmt_reads (zend : Zend) {x : Dbl} {sign : Bool} {digits r : Bytes} {decpt : Int}
    (hdtoa : zend.dtoa x = (sign, digits, decpt)) (h : FiniteDigits digits decpt) (hr : Ends r) :
    readNumeral (phpMemcachedGFmt zend x ++ r) =
      some (sign, scaled digits (decpt - digits.length), r) := by
  obtain ⟨hne, hdigits, hdecpt⟩ := h
  unfold phpMemcachedGFmt
  rw [hdtoa]
  dsimp only
  rw [if_neg hdecpt, List.append_assoc]
  apply readNumeral_signed
  split
  · exact readMagnitude_gFmtExp hne hdigits hr decpt
  · split
    · rename_i hle
      exact readMagnitude_leading hne hdigits hr hle
    · rename_i hpos
      exact readMagnitude_gFmtPoint hne hdigits hr (by omega)

theorem gFmt_fits (zend : Zend) {x : Dbl} {sign : Bool} {digits : Bytes} {decpt : Int}
    (hdtoa : zend.dtoa x = (sign, digits, decpt)) (hlen : digits.length ≤ 17)
    (hdecpt : -400 ≤ decpt ∧ decpt ≤ 400) : (phpMemcachedGFmt zend x).length ≤ 39 := by
  obtain ⟨hlow, hhigh⟩ := hdecpt
  have hsign : (if sign then [45] else [] : Bytes).length ≤ 1 := by
    cases sign <;> decide
  have hfinite : decpt ≠ 9999 := by omega
  unfold phpMemcachedGFmt
  rw [hdtoa]
  dsimp only
  rw [List.length_append, if_neg hfinite]
  refine Nat.add_le_add hsign (?_ : _ ≤ 38)
  split
  · have := length_gFmtExp_le digits (show (decpt - 1).natAbs < 1000 by omega)
    omega
  · rename_i hmiddle
    split
    · rw [List.length_cons, List.length_append, List.length_replicate]
      omega
    · have := length_gFmtPoint_le digits (show decpt ≤ digits.length + 5 by omega)
      omega

/-- **The text of a finite double**: the loop over the weights of the exponent ends at its own test,
the text leaves a byte of the 40 for the terminator, and as a numeral it is the number the sign, the
digits and the point stand for. -/
theorem gFmt_denotes (zend : Zend) (x : Dbl) (sign : Bool) (digits : Bytes) (decpt : Int)
    (hdtoa : zend.dtoa x = (sign, digits, decpt)) (hne : digits ≠ [])
    (hdigits : ∀ b ∈ digits, isDigit b = true) (hlen : digits.length ≤ 17)
    (hdecpt : -400 ≤ decpt ∧ decpt ≤ 400) :
    (decpt - 1).natAbs <
      10 * (expWidth (decpt - 1).natAbs 2 10 (decpt - 1).natAbs).2 ∧
    (phpMemcachedGFmt zend x).length ≤ 39 ∧
    readNumeral (phpMemcachedGFmt zend x) =
      some (sign, (natVal digits : Rat) * 10 ^ (decpt - (digits.length : Int)), []) := by
  refine ⟨(expWidth_start _).stops, gFmt_fits zend hdtoa hlen hdecpt, ?_⟩
  have hreads := gFmt_reads zend hdtoa ⟨hne, hdigits, by omega⟩ ends_nil
  rw [List.append_nil] at hreads
  exact hreads

/-- the text of `-12.5`: sign, three digits, two of them before the point -/
theorem gFmt_denotes_minus :
    (2 - 1 : Int).natAbs < 10 * (expWidth (2 - 1 : Int).natAbs 2 10 (2 - 1 : Int).natAbs).2 ∧
    (phpMemcachedGFmt { plainZend with dtoa := fun _ => (true, ascii ['1', '2', '5'], 2) }
      ⟨0xC029000000000000⟩).length ≤ 39 ∧
    readNumeral (phpMemcachedGFmt { plainZend with dtoa := fun _ => (true, ascii ['1', '2', '5'], 2) }
      ⟨0xC029000000000000⟩) =
      some (true, (natVal (ascii ['1', '2', '5']) : Rat) *
        10 ^ ((2 : Int) - ((ascii ['1', '2', '5']).length : Int)), []) :=
  gFmt_denotes _ _ true (ascii ['1', '2', '5']) 2 rfl (by decide) (List.all_eq_true.mp rfl)
    (by decide) (by decide)

end PhpMemcached
