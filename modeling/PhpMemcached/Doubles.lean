import PhpMemcached.Value
import PhpMemcached.Lib.Rounding

/-!
# Integers as PHP doubles

A double has 53 binary digits: an integer of more is rounded to the nearest of these.

* `Dbl.ofNat`, `Dbl.ofInt`   the conversions `(double) n`;
* `Dbl.toUInt64`             the conversion back;
* `Dbl.ofNat_inj`            two integers are the same double if they are rounded to the same;
* `Dbl.toUInt64_ofNat`       what comes back of an integer: it, rounded.
-/

namespace PhpMemcached

namespace Dbl

/-- the 53 digits of a rounded number -/
def significand (m : Nat) : Nat := m * 2 ^ 52 / 2 ^ m.log2

/-- the bits of `(double) n`; the leading digit counts as one of the exponent -/
def bitsOfNat (n : Nat) : Nat :=
  let m := Binary.round 53 n
  if m = 0 then 0 else (m.log2 + 1022) * 2 ^ 52 + significand m

def ofNat (n : Nat) : Dbl := ⟨BitVec.ofNat 64 (bitsOfNat n)⟩

def ofInt (n : Int) : Dbl :=
  if n < 0 then ⟨BitVec.ofNat 64 (2 ^ 63 + bitsOfNat n.natAbs)⟩ else ofNat n.natAbs

/-- `(uint64_t) d` -/
def toUInt64 (zend : Zend) (d : Dbl) : UInt64 :=
  match d.truncNat with
  | some n =>
    if (d.isNeg = true ∧ 0 < n) ∨ 2 ^ 64 ≤ n then zend.castOverflow d else UInt64.ofNat n
  | none => zend.castOverflow d

/-! ## the significand -/

theorem significand_bounds {m : Nat} (hm : m ≠ 0) :
    2 ^ 52 ≤ significand m ∧ significand m < 2 ^ 53 := by
  have hpos : 0 < 2 ^ m.log2 := Nat.two_pow_pos _
  unfold significand
  constructor
  · rw [Nat.le_div_iff_mul_le hpos, Nat.mul_comm]
    exact Nat.mul_le_mul_right _ (Nat.log2_self_le hm)
  · rw [Nat.div_lt_iff_lt_mul hpos]
    have hlt : m < 2 * 2 ^ m.log2 := Nat.pow_succ' ▸ Nat.lt_log2_self
    omega

/-- an integer of 64 bits or less is not far off -/
theorem log2_lt_of_le {m : Nat} (hm : m ≠ 0) (hle : m ≤ 2 ^ 64) : m.log2 < 65 :=
  (Nat.log2_lt hm).mpr (Nat.lt_of_le_of_lt hle (by decide))

theorem bitsOfNat_lt {n : Nat} (hn : n < 2 ^ 64) : bitsOfNat n < 2047 * 2 ^ 52 := by
  unfold bitsOfNat
  dsimp only
  split_ifs with hm
  · decide
  · have hle : Binary.round 53 n ≤ 2 ^ 64 := Binary.round_le_two_pow (by decide) hn
    have hlog : (Binary.round 53 n).log2 < 65 :=
      (Nat.log2_lt hm).mpr (Nat.lt_of_le_of_lt hle (by decide))
    have hs := (significand_bounds hm).2
    omega

/-- the digits above the point -/
theorem significand_mul {m : Nat} (hdvd : Binary.ulp 53 m ∣ m) (hlog : 52 ≤ m.log2) :
    significand m * 2 ^ (m.log2 - 52) = m := by
  have hpow : 2 ^ m.log2 = 2 ^ (m.log2 - 52) * 2 ^ 52 := by
    rw [← Nat.pow_add, Nat.sub_add_cancel hlog]
  have hulp : Binary.ulp 53 m = 2 ^ (m.log2 - 52) := by
    rw [Binary.ulp, show m.log2 + 1 - 53 = m.log2 - 52 by omega]
  rw [significand, hpow, Nat.mul_div_mul_right _ _ (Nat.two_pow_pos 52)]
  exact Nat.div_mul_cancel (hulp ▸ hdvd)

theorem significand_div {m : Nat} (hlog : m.log2 ≤ 52) :
    significand m / 2 ^ (52 - m.log2) = m := by
  rw [significand, Nat.div_div_eq_div_mul, ← Nat.pow_add, Nat.add_sub_cancel' hlog]
  exact Nat.mul_div_cancel m (Nat.two_pow_pos 52)

/-- what `truncNat` reads in these bits, whatever the sign -/
theorem truncNat_of_bits {d : Dbl} {n : Nat} (hn : n < 2 ^ 64)
    (hd : d.bits.toNat % 2 ^ 63 = bitsOfNat n) : d.truncNat = some (Binary.round 53 n) := by
  have he : d.bits.toNat / 2 ^ 52 % 2 ^ 11 = bitsOfNat n / 2 ^ 52 := by
    have := bitsOfNat_lt hn
    omega
  have hf : d.bits.toNat % 2 ^ 52 = bitsOfNat n % 2 ^ 52 := by
    rw [← hd]
    omega
  unfold truncNat
  rw [he, hf]
  unfold bitsOfNat
  dsimp only
  have hdvd : Binary.ulp 53 (Binary.round 53 n) ∣ Binary.round 53 n :=
    Binary.round_eq_self_iff.mp (Binary.round_round (by decide))
  have hle : Binary.round 53 n ≤ 2 ^ 64 := Binary.round_le_two_pow (by decide) hn
  generalize Binary.round 53 n = m at hdvd hle ⊢
  by_cases hm : m = 0
  · rw [if_pos hm, hm, Nat.zero_div, Nat.zero_mod, if_neg (by decide), if_pos rfl,
      if_neg (by decide), Nat.zero_div]
  · rw [if_neg hm]
    have hlog := log2_lt_of_le hm hle
    obtain ⟨hlow, hhigh⟩ := significand_bounds hm
    have hmul := significand_mul hdvd
    have hdiv := significand_div (m := m)
    generalize significand m = x at hlow hhigh hmul hdiv ⊢
    have hexp : ((m.log2 + 1022) * 2 ^ 52 + x) / 2 ^ 52 = m.log2 + 1023 := by omega
    have hfrac : ((m.log2 + 1022) * 2 ^ 52 + x) % 2 ^ 52 = x - 2 ^ 52 := by omega
    have hfinite : m.log2 + 1023 ≠ 2047 := by omega
    have hnormal : m.log2 + 1023 ≠ 0 := by omega
    rw [hexp, hfrac, if_neg hfinite, if_neg hnormal, Nat.add_sub_cancel' hlow]
    split_ifs with hge
    · rw [show m.log2 + 1023 - 1075 = m.log2 - 52 by omega, hmul (by omega)]
    · rw [show 1075 - max (m.log2 + 1023) 1 = 52 - m.log2 by omega, hdiv (by omega)]

/-! ## integers -/

theorem bits_ofNat {n : Nat} (hn : n < 2 ^ 64) : (ofNat n).bits.toNat = bitsOfNat n := by
  have := bitsOfNat_lt hn
  rw [ofNat, BitVec.toNat_ofNat]
  omega

theorem truncNat_ofNat {n : Nat} (hn : n < 2 ^ 64) :
    (ofNat n).truncNat = some (Binary.round 53 n) := by
  have := bitsOfNat_lt hn
  refine truncNat_of_bits hn ?_
  rw [bits_ofNat hn]
  omega

/-- the double of an integer is that of what the integer is rounded to -/
theorem ofNat_inj {n m : Nat} (hn : n < 2 ^ 64) (hm : m < 2 ^ 64) :
    ofNat n = ofNat m ↔ Binary.round 53 n = Binary.round 53 m := by
  constructor
  · intro h
    have ht := congrArg truncNat h
    rw [truncNat_ofNat hn, truncNat_ofNat hm] at ht
    exact Option.some.inj ht
  · intro h
    unfold ofNat bitsOfNat
    rw [h]

theorem isNeg_ofNat {n : Nat} (hn : n < 2 ^ 64) : (ofNat n).isNeg = false := by
  have := bitsOfNat_lt hn
  have hmsb : (ofNat n).bits.msb = false := by
    rw [BitVec.msb_eq_decide, bits_ofNat hn, decide_eq_false_iff_not]
    omega
  rw [isNeg, hmsb]
  rfl

/-- an integer that is rounded to one of 64 bits comes back rounded -/
theorem toUInt64_ofNat (zend : Zend) {n : Nat} (hn : n < 2 ^ 64) (h : Binary.round 53 n < 2 ^ 64) :
    ((ofNat n).toUInt64 zend).toNat = Binary.round 53 n := by
  unfold toUInt64
  rw [truncNat_ofNat hn]
  dsimp only
  have hin : ¬ ((ofNat n).isNeg = true ∧ 0 < Binary.round 53 n ∨ 2 ^ 64 ≤ Binary.round 53 n) := by
    rintro (⟨hneg, _⟩ | hge)
    · exact Bool.false_ne_true ((isNeg_ofNat hn).symm.trans hneg)
    · exact Nat.not_lt.mpr hge h
  rw [if_neg hin, UInt64.toNat_ofNat_of_lt' h]

end Dbl
end PhpMemcached
