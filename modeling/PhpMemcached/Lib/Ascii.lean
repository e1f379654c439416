import Mathlib.Algebra.Order.Group.Nat
import Mathlib.Data.List.TakeWhile

/-!
# Bytes, C-locale characters and decimal numerals

* `Bytes`, `ascii`            byte strings, and the bytes of ASCII text;
* `isSpace`, `isGraph`        `isspace` and `isgraph` of `<ctype.h>` in the C locale;
* `natText`, `intText`        decimal numerals as `printf` writes them (`%lu`, `%ld`);
* `strtoz`                    the integer `strtol(s, NULL, 10)` reads, before it is clamped;
* `strtoull`                  `strtoull(s, &end, 0)`, with what is left and whether it overflowed;
* `signDigits`                sign and digits of a numeral after white space.

A numeral is read back as the number it was written for (`strtoz_intText`, `strtoull_natText`). A
string of decimal digits is another number for `strtoull` if it starts with a zero and is no single
digit (`strtoull_digits`, `strtoull_octal`).
-/

namespace Ascii

/-- a string of bytes, of any length and content -/
abbrev Bytes := List UInt8

/-- the bytes of ASCII text -/
def ascii (cs : List Char) : Bytes := cs.map fun c => UInt8.ofNat c.toNat

/-- `isspace` -/
def isSpace (b : UInt8) : Bool := b == 32 || (9 ≤ b && b ≤ 13)

/-- `isgraph` -/
def isGraph (b : UInt8) : Bool := 33 ≤ b && b ≤ 126

def isDigit (b : UInt8) : Bool := 48 ≤ b && b ≤ 57

theorem not_isSpace_of_isGraph {b : UInt8} (h : isGraph b = true) : isSpace b = false := by
  have h' : 33 ≤ b.toNat ∧ b.toNat ≤ 126 := by
    simpa [isGraph, UInt8.le_iff_toNat_le] using h
  have h32 : b ≠ 32 := fun e => by simp [e] at h'
  have h13 : ¬ b ≤ 13 := fun e => by
    have := UInt8.le_iff_toNat_le.mp e
    simp at this
    omega
  simp [isSpace, h32, h13]

/-! ## numerals -/

/-- the decimal numeral of a natural number -/
def natText (n : Nat) : Bytes := ascii (Nat.toDigits 10 n)

/-- the decimal numeral of an integer -/
def intText : Int → Bytes
  | .ofNat n => natText n
  | .negSucc n => 45 :: natText (n + 1)

/-- the number a string of digits stands for -/
def natVal (l : Bytes) : Nat := l.foldl (fun n b => 10 * n + (b.toNat - 48)) 0

/-- the integer `strtol` reads in base 10: leading white space, an optional sign, then the
longest prefix of digits (nothing else is looked at) -/
def strtoz (l : Bytes) : Int :=
  match l.dropWhile isSpace with
  | [] => 0
  | b :: r =>
    if b = 45 then -(natVal (r.takeWhile isDigit))
    else if b = 43 then natVal (r.takeWhile isDigit)
    else natVal ((b :: r).takeWhile isDigit)

/-- the value of a digit, up to base 36 -/
def digitValue (b : UInt8) : Nat :=
  if isDigit b then b.toNat - 48
  else if 97 ≤ b && b ≤ 122 then b.toNat - 87
  else if 65 ≤ b && b ≤ 90 then b.toNat - 55
  else 36

/-- the prefix that picks the base in base 0: `0x` before a hexadecimal digit, or `0` -/
def pickBase (s : Bytes) : Nat × Bytes :=
  match s with
  | 48 :: x :: d :: r =>
    if (x = 120 ∨ x = 88) ∧ digitValue d < 16 then (16, d :: r) else (8, s)
  | 48 :: _ => (8, s)
  | _ => (10, s)

/-- what `strtoull` returns, the rest its end pointer stands at, and whether it set `ERANGE` -/
structure Strtoull where
  val : UInt64
  rest : Bytes
  erange : Bool

/-- `strtoull(s, &end, 0)` on a C string -/
def strtoull (s : Bytes) : Strtoull :=
  let s := s.takeWhile (· ≠ 0)
  let t := s.dropWhile isSpace
  let neg := t.head? = some 45
  let t := if t.head? = some 45 ∨ t.head? = some 43 then t.tail else t
  let (base, t) := pickBase t
  let digits := t.takeWhile fun b => digitValue b < base
  if digits = [] then ⟨0, s, false⟩
  else
    let n := digits.foldl (fun n b => base * n + digitValue b) 0
    let rest := t.drop digits.length
    if n ≥ 2 ^ 64 then ⟨UInt64.ofNat (2 ^ 64 - 1), rest, true⟩
    else ⟨if neg then -UInt64.ofNat n else UInt64.ofNat n, rest, false⟩

theorem digitChar_byte : ∀ d < 10, UInt8.ofNat (Nat.digitChar d).toNat = UInt8.ofNat (48 + d) := by
  decide

/-- the last digit comes off the end -/
theorem natText_eq (n : Nat) :
    natText n = (if n < 10 then [] else natText (n / 10)) ++ [UInt8.ofNat (48 + n % 10)] := by
  unfold natText ascii
  rw [Nat.toDigits_eq_if (by omega)]
  split
  · rename_i h
    simp [digitChar_byte n h, Nat.mod_eq_of_lt h]
  · simp [digitChar_byte (n % 10) (Nat.mod_lt _ (by omega))]

theorem digit_toNat {d : Nat} (h : d < 10) : (UInt8.ofNat (48 + d)).toNat = 48 + d := by
  rw [UInt8.toNat_ofNat']
  omega

theorem isDigit_digit {d : Nat} (h : d < 10) : isDigit (UInt8.ofNat (48 + d)) = true := by
  have h1 := digit_toNat h
  simp only [isDigit, Bool.and_eq_true, decide_eq_true_eq, UInt8.le_iff_toNat_le, h1]
  exact ⟨by simp, by simp; omega⟩

theorem natVal_append (l : Bytes) (b : UInt8) :
    natVal (l ++ [b]) = 10 * natVal l + (b.toNat - 48) := by
  simp [natVal]

theorem natVal_natText (n : Nat) : natVal (natText n) = n := by
  induction n using Nat.strong_induction_on with
  | _ n ih =>
    rw [natText_eq, natVal_append, digit_toNat (Nat.mod_lt _ (by omega))]
    split
    · simp [natVal]
      omega
    · rw [ih (n / 10) (by omega)]
      omega

theorem isDigit_of_mem_natText {n : Nat} {b : UInt8} (h : b ∈ natText n) : isDigit b = true := by
  induction n using Nat.strong_induction_on with
  | _ n ih =>
    rw [natText_eq, List.mem_append, List.mem_singleton] at h
    rcases h with h | rfl
    · split at h
      · exact absurd h List.not_mem_nil
      · exact ih (n / 10) (by omega) h
    · exact isDigit_digit (Nat.mod_lt _ (by omega))

theorem natText_ne_nil (n : Nat) : natText n ≠ [] := by
  rw [natText_eq]
  simp

/-- the digits end where something else begins -/
theorem takeWhile_natText (n : Nat) {r : Bytes} (hr : r.takeWhile isDigit = []) :
    (natText n ++ r).takeWhile isDigit = natText n := by
  rw [List.takeWhile_append_of_pos fun _ h => isDigit_of_mem_natText h, hr, List.append_nil]

/-- a digit is neither white space nor a sign -/
theorem isDigit_plain {b : UInt8} (h : isDigit b = true) :
    isSpace b = false ∧ b ≠ 45 ∧ b ≠ 43 := by
  have h' : 48 ≤ b.toNat ∧ b.toNat ≤ 57 := by
    simpa [isDigit, UInt8.le_iff_toNat_le] using h
  refine ⟨?_, fun e => by simp [e] at h', fun e => by simp [e] at h'⟩
  refine not_isSpace_of_isGraph ?_
  simp only [isGraph, Bool.and_eq_true, decide_eq_true_eq, UInt8.le_iff_toNat_le]
  exact ⟨by simp; omega, by simp; omega⟩

theorem strtoz_natText (n : Nat) {r : Bytes} (hr : r.takeWhile isDigit = []) :
    strtoz (natText n ++ r) = n := by
  have hdigits := takeWhile_natText n hr
  cases h : natText n with
  | nil => exact absurd h (natText_ne_nil n)
  | cons b t =>
    have hb : isDigit b = true := isDigit_of_mem_natText (h ▸ List.mem_cons_self)
    obtain ⟨hs, h45, h43⟩ := isDigit_plain hb
    have hd : (b :: (t ++ r)).dropWhile isSpace = b :: (t ++ r) := by simp [List.dropWhile, hs]
    rw [h, List.cons_append] at hdigits
    simp only [strtoz, List.cons_append, hd, if_neg h45, if_neg h43, hdigits]
    rw [← h, natVal_natText]

/-- **A numeral is read back as the number it was written for**, whatever follows it that is no
digit. -/
theorem strtoz_intText (n : Int) {r : Bytes} (hr : r.takeWhile isDigit = []) :
    strtoz (intText n ++ r) = n := by
  cases n with
  | ofNat n => exact strtoz_natText n hr
  | negSucc n =>
    have hd : (45 :: (natText (n + 1) ++ r)).dropWhile isSpace = 45 :: (natText (n + 1) ++ r) := by
      simp [List.dropWhile, isSpace]
    simp only [intText, strtoz, List.cons_append, hd, if_pos]
    rw [takeWhile_natText _ hr, natVal_natText]
    omega

theorem intText_ne_nil (n : Int) : intText n ≠ [] := by
  cases n with
  | ofNat n => exact natText_ne_nil n
  | negSucc n => exact List.cons_ne_nil _ _

/-! ## numerals in base 0 -/

/-- sign and rest of a numeral, after white space -/
def signDigits (s : Bytes) : Bool × Bytes :=
  let t := s.dropWhile isSpace
  (t.head? = some 45, if t.head? = some 45 ∨ t.head? = some 43 then t.tail else t)

theorem digitValue_of_isDigit {b : UInt8} (h : isDigit b = true) : digitValue b = b.toNat - 48 := by
  rw [digitValue, if_pos h]

theorem digitValue_lt {b : UInt8} (h : isDigit b = true) : digitValue b < 10 := by
  have h57 : b ≤ 57 := by
    simp only [isDigit, Bool.and_eq_true, decide_eq_true_eq] at h
    exact h.2
  have := UInt8.le_iff_toNat_le.mp h57
  rw [digitValue_of_isDigit h]
  simp at this
  omega

theorem foldl_digitValue {ds : Bytes} (hds : ∀ b ∈ ds, isDigit b = true) (n : Nat) :
    ds.foldl (fun n b => 10 * n + digitValue b) n =
      ds.foldl (fun n b => 10 * n + (b.toNat - 48)) n := by
  induction ds generalizing n with
  | nil => rfl
  | cons b ds ih =>
    rw [List.foldl_cons, List.foldl_cons, digitValue_of_isDigit (hds b List.mem_cons_self)]
    exact ih (fun b hb => hds b (List.mem_cons_of_mem _ hb)) _

/-- white space, sign and digits contain no terminator -/
theorem ne_zero_of_signDigits {s : Bytes} (hds : ∀ b ∈ (signDigits s).2, isDigit b = true) :
    s.takeWhile (· ≠ 0) = s := by
  have hsplit : ∀ b ∈ s, b ∈ s.takeWhile isSpace ∨ b ∈ s.dropWhile isSpace := by
    intro b hb
    rw [← List.takeWhile_append_dropWhile (p := isSpace) (l := s), List.mem_append] at hb
    exact hb
  rw [List.takeWhile_eq_self_iff]
  intro b hb
  rw [decide_eq_true_iff]
  rintro rfl
  rcases hsplit 0 hb with h | h
  · have := List.mem_takeWhile_imp h
    revert this
    decide
  · have hrest : (0 : UInt8) ∈ (signDigits s).2 := by
      unfold signDigits
      dsimp only
      cases ht : s.dropWhile isSpace with
      | nil => rw [ht] at h; cases h
      | cons c t =>
        rw [ht] at h
        split
        · rename_i hsign
          rcases List.mem_cons.mp h with rfl | h
          · rcases hsign with hsign | hsign <;> cases hsign
          · exact h
        · exact h
    have := hds 0 hrest
    revert this
    decide

/-- what `strtoull` makes of the digits after the prefix that picks the base -/
def readDigits (s : Bytes) (neg : Bool) (b : Nat × Bytes) : Strtoull :=
  let digits := b.2.takeWhile fun c => digitValue c < b.1
  if digits = [] then ⟨0, s, false⟩
  else
    let n := digits.foldl (fun n c => b.1 * n + digitValue c) 0
    let rest := b.2.drop digits.length
    if n ≥ 2 ^ 64 then ⟨UInt64.ofNat (2 ^ 64 - 1), rest, true⟩
    else ⟨if neg then -UInt64.ofNat n else UInt64.ofNat n, rest, false⟩

theorem strtoull_eq (s : Bytes) : strtoull s = readDigits (s.takeWhile (· ≠ 0))
    (signDigits (s.takeWhile (· ≠ 0))).1 (pickBase (signDigits (s.takeWhile (· ≠ 0))).2) := by
  unfold strtoull readDigits
  rw [show (signDigits (s.takeWhile (· ≠ 0))).1 =
    decide (((s.takeWhile (· ≠ 0)).dropWhile isSpace).head? = some 45) from rfl]
  simp only [decide_eq_true_eq]
  rfl

theorem strtoull_eq_of_digits {s : Bytes} (hds : ∀ b ∈ (signDigits s).2, isDigit b = true) :
    strtoull s = readDigits s (signDigits s).1 (pickBase (signDigits s).2) := by
  rw [strtoull_eq, ne_zero_of_signDigits hds]

/-- a number out of range is clamped -/
theorem strtoull_erange {s : Bytes} (h : (strtoull s).erange = true) :
    (strtoull s).val = UInt64.ofNat (2 ^ 64 - 1) := by
  rw [strtoull_eq] at h ⊢
  unfold readDigits at h ⊢
  dsimp only at h ⊢
  split at h
  · cases h
  · rename_i hne
    rw [if_neg hne]
    split at h
    · rename_i hge
      rw [if_pos hge]
    · cases h

/-- the digits of another base, all of them -/
theorem readDigits_all {s ds : Bytes} {neg : Bool} {base : Nat} (hne : ds ≠ [])
    (hall : ∀ b ∈ ds, digitValue b < base) {n : Nat}
    (hn : ds.foldl (fun n c => base * n + digitValue c) 0 = n) (hlt : n < 2 ^ 64) :
    readDigits s neg (base, ds) =
      ⟨if neg then -UInt64.ofNat n else UInt64.ofNat n, [], false⟩ := by
  have htake : (ds.takeWhile fun c => digitValue c < base) = ds := by
    rw [List.takeWhile_eq_self_iff]
    exact fun b hb => decide_eq_true (hall b hb)
  unfold readDigits
  dsimp only
  rw [htake, if_neg hne, hn, if_neg (by omega), List.drop_length]

/-- **Decimal digits without a leading zero are read as they stand.** -/
theorem strtoull_digits {s : Bytes} (hds : ∀ b ∈ (signDigits s).2, isDigit b = true)
    (hne : (signDigits s).2 ≠ []) (hzero : (signDigits s).2.head? ≠ some 48)
    (hlt : natVal (signDigits s).2 < 2 ^ 64) :
    strtoull s = ⟨if (signDigits s).1 then -UInt64.ofNat (natVal (signDigits s).2)
      else UInt64.ofNat (natVal (signDigits s).2), [], false⟩ := by
  have hbase : pickBase (signDigits s).2 = (10, (signDigits s).2) := by
    unfold pickBase
    split
    · rename_i h
      rw [h] at hzero
      exact absurd rfl hzero
    · rename_i h
      rw [h] at hzero
      exact absurd rfl hzero
    · rfl
  rw [strtoull_eq_of_digits hds, hbase]
  exact readDigits_all hne (fun b hb => digitValue_lt (hds b hb)) (foldl_digitValue hds 0) hlt

/-- decimal digits after a zero are read in base 8, as far as they go -/
theorem strtoull_octal {s : Bytes} (hds : ∀ b ∈ (signDigits s).2, isDigit b = true)
    (hzero : (signDigits s).2.head? = some 48) :
    strtoull s = readDigits s (signDigits s).1 (8, (signDigits s).2) := by
  have hbase : pickBase (signDigits s).2 = (8, (signDigits s).2) := by
    unfold pickBase
    split
    · rename_i x d r h
      have hx : isDigit x = true := hds x (by rw [h]; simp)
      have hplain : ¬ (x = 120 ∨ x = 88) := by
        rintro (rfl | rfl) <;> exact absurd hx (by decide)
      rw [if_neg fun h => hplain h.1]
    · rfl
    · rename_i h1 h2
      cases hs : (signDigits s).2 with
      | nil => rw [hs] at hzero; cases hzero
      | cons b t =>
        rw [hs] at hzero h2
        cases Option.some.inj hzero
        exact absurd rfl (h2 t)
  rw [strtoull_eq_of_digits hds, hbase]

/-- a numeral starts with no zero, unless it is the one of 0 -/
theorem natText_head {n : Nat} (hn : 0 < n) : (natText n).head? ≠ some 48 := by
  induction n using Nat.strong_induction_on with
  | _ n ih =>
    rw [natText_eq]
    by_cases h : n < 10
    · rw [if_pos h, List.nil_append, List.head?_cons]
      intro h48
      have := congrArg UInt8.toNat (Option.some.inj h48)
      rw [digit_toNat (by omega)] at this
      simp at this
      omega
    · have hne : (natText (n / 10)).head? ≠ some 48 := ih (n / 10) (by omega) (by omega)
      rw [if_neg h, List.head?_append]
      cases hd : (natText (n / 10)).head? with
      | none => exact absurd (List.head?_eq_none_iff.mp hd) (natText_ne_nil _)
      | some b => rwa [hd] at hne

theorem signDigits_natText (n : Nat) : signDigits (natText n) = (false, natText n) := by
  cases h : natText n with
  | nil => exact absurd h (natText_ne_nil n)
  | cons b t =>
    obtain ⟨hs, h45, h43⟩ := isDigit_plain (isDigit_of_mem_natText (h ▸ List.mem_cons_self) : isDigit b = true)
    have hd : (b :: t).dropWhile isSpace = b :: t := by simp [List.dropWhile, hs]
    unfold signDigits
    simp [hd, h45, h43]

/-- **A numeral is read back as the number it was written for**, in base 0 too. -/
theorem strtoull_natText {n : Nat} (hpos : 0 < n) (hlt : n < 2 ^ 64) :
    strtoull (natText n) = ⟨UInt64.ofNat n, [], false⟩ := by
  have hsign := signDigits_natText n
  have hds : ∀ b ∈ (signDigits (natText n)).2, isDigit b = true := by
    rw [hsign]
    exact fun b hb => isDigit_of_mem_natText hb
  rw [strtoull_digits hds (by rw [hsign]; exact natText_ne_nil n)
    (by rw [hsign]; exact natText_head hpos) (by rw [hsign]; exact (natVal_natText n).symm ▸ hlt),
    hsign, natVal_natText]
  rfl

/-! ## octal digits read as decimal ones -/

theorem foldl_lt_foldl {m n : Nat} (h : m < n) (ds : Bytes) :
    ds.foldl (fun n c => 8 * n + digitValue c) m < ds.foldl (fun n c => 10 * n + digitValue c) n := by
  induction ds generalizing m n with
  | nil => exact h
  | cons d ds ih =>
    have hstep : 8 * m + digitValue d < 10 * n + digitValue d := by omega
    exact ih hstep

theorem le_foldl (n : Nat) (ds : Bytes) :
    n ≤ ds.foldl (fun n c => 10 * n + digitValue c) n := by
  induction ds generalizing n with
  | nil => exact Nat.le_refl n
  | cons d ds ih =>
    have h : n ≤ 10 * n + digitValue d := by omega
    exact h.trans (ih _)

/-- a number below 8 is the same in both bases -/
theorem octal_eq_decimal {n : Nat} {ds : Bytes}
    (h : ds.foldl (fun n c => 10 * n + digitValue c) n < 8) :
    (∀ b ∈ ds, digitValue b < 8) ∧ ds.foldl (fun n c => 8 * n + digitValue c) n =
      ds.foldl (fun n c => 10 * n + digitValue c) n := by
  induction ds generalizing n with
  | nil => exact ⟨nofun, rfl⟩
  | cons d ds ih =>
    have hle := le_foldl (10 * n + digitValue d) ds
    rw [List.foldl_cons] at h
    obtain rfl : n = 0 := by omega
    obtain ⟨hds, heq⟩ := ih h
    refine ⟨fun b hb => ?_, ?_⟩
    · rcases List.mem_cons.mp hb with rfl | hb
      · omega
      · exact hds b hb
    · rw [List.foldl_cons, List.foldl_cons, ← heq]

/-- any other number is less in base 8 -/
theorem octal_lt_decimal {ds : Bytes} (hds : ∀ b ∈ ds, digitValue b < 8)
    (h : 8 ≤ ds.foldl (fun n c => 10 * n + digitValue c) 0) :
    ds.foldl (fun n c => 8 * n + digitValue c) 0 <
      ds.foldl (fun n c => 10 * n + digitValue c) 0 := by
  induction ds with
  | nil => exact absurd h (by decide)
  | cons d ds ih =>
    have hrest : ∀ b ∈ ds, digitValue b < 8 := fun b hb => hds b (List.mem_cons_of_mem _ hb)
    have hd : digitValue d < 8 := hds d List.mem_cons_self
    rw [List.foldl_cons, List.foldl_cons] at *
    by_cases hzero : digitValue d = 0
    · rw [hzero] at h ⊢
      exact ih hrest h
    · cases ds with
      | nil =>
        rw [List.foldl_nil] at h
        omega
      | cons c ds =>
        rw [List.foldl_cons, List.foldl_cons]
        exact foldl_lt_foldl (by omega) ds

/-- **Digits after a zero are read as they stand if they are a number below 8**, -/
theorem strtoull_octal_small {s : Bytes} (hds : ∀ b ∈ (signDigits s).2, isDigit b = true)
    (hzero : (signDigits s).2.head? = some 48) (hlt : natVal (signDigits s).2 < 8) :
    strtoull s = ⟨if (signDigits s).1 then -UInt64.ofNat (natVal (signDigits s).2)
      else UInt64.ofNat (natVal (signDigits s).2), [], false⟩ := by
  have hval : (signDigits s).2.foldl (fun n c => 10 * n + digitValue c) 0 =
      natVal (signDigits s).2 := foldl_digitValue hds 0
  obtain ⟨hall, heq⟩ := octal_eq_decimal (hval ▸ hlt)
  have hne : (signDigits s).2 ≠ [] := by
    rintro h
    rw [h] at hzero
    cases hzero
  rw [strtoull_octal hds hzero]
  exact readDigits_all hne hall (heq.trans hval) (by omega)

/-- **and otherwise, if they are octal digits to the end, as a smaller number.** -/
theorem strtoull_octal_large {s : Bytes} (hds : ∀ b ∈ (signDigits s).2, isDigit b = true)
    (hzero : (signDigits s).2.head? = some 48) (hge : 8 ≤ natVal (signDigits s).2)
    (hlt : natVal (signDigits s).2 < 2 ^ 64) (hrest : (strtoull s).rest = []) :
    ∃ n < natVal (signDigits s).2, (strtoull s).val =
      if (signDigits s).1 then -UInt64.ofNat n else UInt64.ofNat n := by
  have hval : (signDigits s).2.foldl (fun n c => 10 * n + digitValue c) 0 =
      natVal (signDigits s).2 := foldl_digitValue hds 0
  have hne : (signDigits s).2 ≠ [] := by
    rintro h
    rw [h] at hzero
    cases hzero
  rw [strtoull_octal hds hzero] at hrest ⊢
  let digits := (signDigits s).2.takeWhile fun c => digitValue c < 8
  have htake : digits = (signDigits s).2 := by
    unfold readDigits at hrest
    dsimp only at hrest
    split at hrest
    · -- no digit at all was read, so the string is empty
      change s = [] at hrest
      rw [hrest] at hne
      exact absurd rfl hne
    · have hdrop : (signDigits s).2.drop digits.length = [] := by
        split at hrest <;> exact hrest
      have hprefix : digits ++ (signDigits s).2.drop digits.length = (signDigits s).2 :=
        List.prefix_iff_eq_append.mp (List.takeWhile_prefix _)
      rwa [hdrop, List.append_nil] at hprefix
  have hall : ∀ b ∈ (signDigits s).2, digitValue b < 8 := by
    intro b hb
    have hmem : b ∈ digits := htake.symm ▸ hb
    simpa using List.mem_takeWhile_imp hmem
  have hless := octal_lt_decimal hall (hval.symm ▸ hge)
  rw [hval] at hless
  refine ⟨_, hless, ?_⟩
  rw [readDigits_all hne hall rfl (hless.trans hlt)]

end Ascii
