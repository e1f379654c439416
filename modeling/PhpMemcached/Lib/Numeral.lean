import Mathlib.Algebra.Order.Field.Power
import Mathlib.Data.Rat.Defs
import Mathlib.Algebra.Field.Rat
import Mathlib.Data.List.Induction
import Mathlib.Tactic.NormNum
import Mathlib.Tactic.Ring
import PhpMemcached.Lib.Ascii

/-!
# Decimal numerals with point and exponent

* `readExponent`      an exponent at the front of a text, and what is left;
* `readMagnitude`     digits with a point somewhere among them, and an exponent;
* `readNumeral`       a sign before that; none if there is no digit.

A reader takes the longest numeral there is and leaves the rest. The value is a rational number, the
sign is apart from it: `-0` is not `0`.
-/

namespace Ascii

/-- the sign at the front of a text, and what is left -/
def readSign (s : Bytes) : Bool × Bytes :=
  (s.head? = some 45, if s.head? = some 45 ∨ s.head? = some 43 then s.tail else s)

def signed (neg : Bool) (n : Nat) : Int := if neg then -n else n

/-- an exponent has an `e`, a sign if it likes, and a digit -/
def readExponent (s : Bytes) : Int × Bytes :=
  if s.head? = some 101 ∨ s.head? = some 69 then
    let (neg, t) := readSign s.tail
    let ds := t.takeWhile isDigit
    if ds = [] then (0, s) else (signed neg (natVal ds), t.dropWhile isDigit)
  else (0, s)

/-- the digits behind a point, and what is left -/
def readFraction (s : Bytes) : Bytes × Bytes :=
  if s.head? = some 46 then (s.tail.takeWhile isDigit, s.tail.dropWhile isDigit) else ([], s)

/-- the number these digits are, the last of which has the weight `10 ^ e` -/
def scaled (ds : Bytes) (e : Int) : Rat := natVal ds * 10 ^ e

def readMagnitude (s : Bytes) : Option (Rat × Bytes) :=
  let whole := s.takeWhile isDigit
  let (frac, t) := readFraction (s.dropWhile isDigit)
  let (e, rest) := readExponent t
  if whole ++ frac = [] then none else some (scaled (whole ++ frac) (e - frac.length), rest)

/-- sign and magnitude of the numeral at the front of a text, and what is left -/
def readNumeral (s : Bytes) : Option (Bool × Rat × Bytes) :=
  let (neg, t) := readSign s
  (readMagnitude t).map (neg, ·)

/-! ## digits -/

/-- a string of decimal digits -/
def AllDigits (ds : Bytes) : Prop := ∀ b ∈ ds, isDigit b = true

theorem AllDigits.append {ds ds' : Bytes} (h : AllDigits ds) (h' : AllDigits ds') :
    AllDigits (ds ++ ds') := by
  intro b hb
  rcases List.mem_append.mp hb with hb | hb
  · exact h b hb
  · exact h' b hb

theorem AllDigits.of_append {ds ds' : Bytes} (h : AllDigits (ds ++ ds')) :
    AllDigits ds ∧ AllDigits ds' :=
  ⟨fun b hb => h b (List.mem_append_left _ hb), fun b hb => h b (List.mem_append_right _ hb)⟩

theorem allDigits_zeros (n : Nat) : AllDigits (List.replicate n 48) := by
  intro b hb
  rw [List.eq_of_mem_replicate hb]
  rfl

/-- a text that no digit is at the front of -/
def NoDigit (r : Bytes) : Prop := ∀ b, r.head? = some b → isDigit b = false

theorem takeWhile_digits {ds r : Bytes} (h : AllDigits ds) (hr : NoDigit r) :
    (ds ++ r).takeWhile isDigit = ds := by
  induction ds with
  | nil =>
    cases r with
    | nil => rfl
    | cons b r => exact List.takeWhile_cons_of_neg (by rw [hr b rfl]; decide)
  | cons b ds ih =>
    rw [List.cons_append, List.takeWhile_cons_of_pos (h b List.mem_cons_self),
      ih fun c hc => h c (List.mem_cons_of_mem _ hc)]

theorem dropWhile_digits {ds r : Bytes} (h : AllDigits ds) (hr : NoDigit r) :
    (ds ++ r).dropWhile isDigit = r := by
  have hsplit := List.takeWhile_append_dropWhile (p := isDigit) (l := ds ++ r)
  rw [takeWhile_digits h hr] at hsplit
  exact List.append_cancel_left hsplit

theorem foldl_digits (n : Nat) (ds : Bytes) :
    ds.foldl (fun n b => 10 * n + (b.toNat - 48)) n = n * 10 ^ ds.length + natVal ds := by
  induction ds using List.reverseRecOn with
  | nil => simp [natVal]
  | append_singleton ds b ih =>
    rw [List.foldl_append, ih, natVal_append, List.length_append, List.length_singleton, pow_succ]
    simp only [List.foldl_cons, List.foldl_nil]
    ring

theorem natVal_concat (ds ds' : Bytes) :
    natVal (ds ++ ds') = natVal ds * 10 ^ ds'.length + natVal ds' := by
  rw [natVal, List.foldl_append]
  exact foldl_digits _ ds'

theorem natVal_zeros (n : Nat) : natVal (List.replicate n 48) = 0 := by
  induction n with
  | zero => rfl
  | succ n ih => rw [List.replicate_succ', natVal_append, ih]; rfl

/-- zeros behind the digits move the weight -/
theorem scaled_append_zeros (ds : Bytes) (n : Nat) (e : Int) :
    scaled (ds ++ List.replicate n 48) e = scaled ds (e + n) := by
  unfold scaled
  rw [natVal_concat, natVal_zeros, List.length_replicate, Nat.add_zero, Nat.cast_mul,
    zpow_add₀ (by norm_num), zpow_natCast, Nat.cast_pow]
  push_cast
  ring

theorem scaled_zeros_append (ds : Bytes) (n : Nat) (e : Int) :
    scaled (List.replicate n 48 ++ ds) e = scaled ds e := by
  unfold scaled
  rw [natVal_concat, natVal_zeros, Nat.zero_mul, Nat.zero_add]

/-! ## what is read of a text -/

/-- a text that no numeral goes on with -/
def Ends (r : Bytes) : Prop :=
  ∀ b, r.head? = some b → isDigit b = false ∧ b ≠ 46 ∧ b ≠ 101 ∧ b ≠ 69

theorem Ends.noDigit {r : Bytes} (h : Ends r) : NoDigit r := fun b hb => (h b hb).1

theorem ends_nil : Ends [] := fun _ hb => by cases hb

theorem ends_terminator (r : Bytes) : Ends (0 :: r) := by
  rintro b ⟨⟩
  decide

theorem readFraction_of_ends {r : Bytes} (h : Ends r) : readFraction r = ([], r) :=
  if_neg fun hpoint => (h _ hpoint).2.1 rfl

theorem readExponent_of_ends {r : Bytes} (h : Ends r) : readExponent r = (0, r) := by
  refine if_neg ?_
  rintro (he | he)
  · exact (h _ he).2.2.1 rfl
  · exact (h _ he).2.2.2 rfl

theorem readFraction_point {ds r : Bytes} (hds : AllDigits ds) (hr : NoDigit r) :
    readFraction (46 :: (ds ++ r)) = (ds, r) := by
  rw [readFraction, if_pos (by rfl), List.tail_cons, takeWhile_digits hds hr,
    dropWhile_digits hds hr]

/-- a sign and digits behind the `e` -/
theorem readExponent_digits (neg : Bool) {ds r : Bytes} (hne : ds ≠ []) (hds : AllDigits ds)
    (hr : NoDigit r) :
    readExponent (101 :: (if neg then 45 else 43) :: (ds ++ r)) =
      (signed neg (natVal ds), r) := by
  have hsign : readSign ((if neg then 45 else 43) :: (ds ++ r)) = (neg, ds ++ r) := by
    cases neg <;> rfl
  rw [readExponent, if_pos (by exact .inl rfl), List.tail_cons, hsign]
  dsimp only
  rw [takeWhile_digits hds hr, dropWhile_digits hds hr, if_neg hne]

/-- digits before a text, with what follows them read first -/
theorem readMagnitude_eq {whole frac t t' rest : Bytes} {e : Int} (hwhole : AllDigits whole)
    (ht : NoDigit t) (hfrac : readFraction t = (frac, t')) (hexp : readExponent t' = (e, rest))
    (hne : whole ++ frac ≠ []) :
    readMagnitude (whole ++ t) = some (scaled (whole ++ frac) (e - frac.length), rest) := by
  unfold readMagnitude
  rw [takeWhile_digits hwhole ht, dropWhile_digits hwhole ht, hfrac]
  dsimp only
  rw [hexp]
  exact if_neg hne

/-- no magnitude starts with a sign -/
theorem readMagnitude_sign (s : Bytes) :
    readMagnitude (45 :: s) = none ∧ readMagnitude (43 :: s) = none := by
  have hnone {b : UInt8} (hb : isDigit b = false) (hpoint : b ≠ 46) :
      readMagnitude (b :: s) = none := by
    have hwhole : (b :: s).takeWhile isDigit = [] :=
      List.takeWhile_cons_of_neg (by rw [hb]; decide)
    have hrest : (b :: s).dropWhile isDigit = b :: s :=
      List.dropWhile_cons_of_neg (by rw [hb]; decide)
    have hfrac : readFraction (b :: s) = ([], b :: s) :=
      if_neg fun h => hpoint (Option.some.inj h)
    unfold readMagnitude
    rw [hwhole, hrest, hfrac]
    exact if_pos rfl
  exact ⟨hnone (by decide) (by decide), hnone (by decide) (by decide)⟩

/-- a magnitude with or without a sign -/
theorem readNumeral_signed (neg : Bool) {s : Bytes} {v : Rat × Bytes}
    (hs : readMagnitude s = some v) :
    readNumeral ((if neg then [45] else []) ++ s) = some (neg, v) := by
  cases neg with
  | true =>
    show (readMagnitude s).map (true, ·) = _
    rw [hs]
    rfl
  | false =>
    have hminus : s.head? ≠ some 45 := by
      intro hhead
      obtain ⟨t, rfl⟩ := List.head?_eq_some_iff.mp hhead
      rw [(readMagnitude_sign t).1] at hs
      cases hs
    have hplus : s.head? ≠ some 43 := by
      intro hhead
      obtain ⟨t, rfl⟩ := List.head?_eq_some_iff.mp hhead
      rw [(readMagnitude_sign t).2] at hs
      cases hs
    have hsign : readSign s = (false, s) := by
      unfold readSign
      rw [if_neg (not_or.mpr ⟨hminus, hplus⟩), decide_eq_false hminus]
    show (readMagnitude (readSign s).2).map ((readSign s).1, ·) = _
    rw [hsign, hs]
    rfl

end Ascii
