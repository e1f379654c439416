import PhpMemcached.DoubleText
import PhpMemcached.RoundTrip
import PhpMemcached.Lib.Nearest

/-!
# Doubles round trip

* `Dbl.value`                       the number the bits without the sign stand for;
* `DtoaSpec`, `StrtodSpec`          what `zend_dtoa` leaves, what `zend_strtod` returns;
* `DoubleRoundTrips`                a double is stored, and read back as itself;
* `doubleRoundTrips_iff`            every double is, except a NaN whose sign bit is set.
-/

namespace PhpMemcached
open Ascii Requests Rounding

namespace Dbl

def sign (x : Dbl) : Bool := x.bits.msb

/-- the bits without the sign -/
def magnitude (x : Dbl) : Nat := x.bits.toNat % 2 ^ 63

/-- the bits of an infinity, without the sign -/
def infMagnitude : Nat := 2047 * 2 ^ 52

def IsFinite (x : Dbl) : Prop := x.magnitude < infMagnitude
def IsInf (x : Dbl) : Prop := x.magnitude = infMagnitude
def IsNan (x : Dbl) : Prop := infMagnitude < x.magnitude

instance (x : Dbl) : Decidable x.IsNan := inferInstanceAs (Decidable (_ < _))

/-- exponent and fraction as a multiple of the least positive number -/
def units (m : Nat) : Nat :=
  if m / 2 ^ 52 = 0 then m % 2 ^ 52 else (2 ^ 52 + m % 2 ^ 52) * 2 ^ (m / 2 ^ 52 - 1)

/-- the number of the bits `m`; an infinity takes the place of the number that would come next -/
def value (m : Nat) : Rat := units m / 2 ^ 1074

/-- the double a number is rounded to -/
def RoundedTo (q : Rat) (x : Dbl) : Prop := Nearest value infMagnitude q x.magnitude

theorem eq_of_sign_magnitude {x y : Dbl} (hs : x.sign = y.sign) (hm : x.magnitude = y.magnitude) :
    x = y := by
  obtain ⟨x⟩ := x
  obtain ⟨y⟩ := y
  congr 1
  apply BitVec.eq_of_toNat_eq
  change x.msb = y.msb at hs
  change x.toNat % 2 ^ 63 = y.toNat % 2 ^ 63 at hm
  rw [BitVec.msb_eq_decide, BitVec.msb_eq_decide, decide_eq_decide] at hs
  have hx := x.isLt
  have hy := y.isLt
  omega

theorem units_lt_succ (m : Nat) : units m < units (m + 1) := by
  have hpow (e : Nat) : 0 < 2 ^ e := Nat.two_pow_pos e
  unfold units
  by_cases hcarry : m % 2 ^ 52 + 1 = 2 ^ 52
  · -- the fraction starts again, at the next exponent
    have hexp : (m + 1) / 2 ^ 52 = m / 2 ^ 52 + 1 := by omega
    have hfrac : (m + 1) % 2 ^ 52 = 0 := by omega
    have htop : m % 2 ^ 52 = 2 ^ 52 - 1 := by omega
    have hnonzero : m / 2 ^ 52 + 1 ≠ 0 := Nat.succ_ne_zero _
    rw [hexp, hfrac, htop, if_neg hnonzero, Nat.add_sub_cancel]
    split
    · rename_i hzero
      rw [hzero]
      decide
    · rename_i hpos
      have hnext : 2 ^ (m / 2 ^ 52) = 2 * 2 ^ (m / 2 ^ 52 - 1) := by
        rw [← Nat.pow_succ']
        congr 1
        omega
      rw [hnext]
      have := hpow (m / 2 ^ 52 - 1)
      omega
  · have hexp : (m + 1) / 2 ^ 52 = m / 2 ^ 52 := by omega
    have hfrac : (m + 1) % 2 ^ 52 = m % 2 ^ 52 + 1 := by omega
    rw [hexp, hfrac]
    split
    · exact Nat.lt_succ_self _
    · exact (Nat.mul_lt_mul_right (hpow _)).mpr (by omega)

theorem value_strictMono : StrictMono value := by
  have hunits : StrictMono units := strictMono_nat_of_lt_succ units_lt_succ
  intro m m' hlt
  have hpos : (0 : Rat) < 2 ^ 1074 := by positivity
  exact (div_lt_div_iff_of_pos_right hpos).mpr (Nat.cast_lt.mpr (hunits hlt))

theorem RoundedTo.unique {q : Rat} {x y : Dbl} (hx : RoundedTo q x) (hy : RoundedTo q y)
    (hs : x.sign = y.sign) : x = y :=
  eq_of_sign_magnitude hs (nearest_unique value_strictMono hx hy)

end Dbl

/-! ## the two conversions of PHP -/

/-- sign, digits and position of the point that `zend_dtoa` in mode 0 leaves for `x`: the digits
identify a finite `x`, that is, it is the double their number is rounded to. There is no use here for
them being the shortest such digits. -/
structure DtoaSpec (x : Dbl) (r : Bool × Bytes × Int) : Prop where
  sign : r.1 = x.sign
  finite : x.IsFinite → FiniteDigits r.2.1 r.2.2 ∧
    x.RoundedTo (scaled r.2.1 (r.2.2 - r.2.1.length))
  infinite : x.IsInf → r.2 = (ascii ['I', 'n', 'f', 'i', 'n', 'i', 't', 'y'], 9999)
  nan : x.IsNan → r.2 = (ascii ['N', 'a', 'N'], 9999)

/-- the double `d` that `zend_strtod` returns for `s`: the longest numeral `s` starts with, rounded;
zero if there is none -/
def StrtodSpec (s : Bytes) (d : Dbl) : Prop :=
  match readNumeral s with
  | some (neg, q, _) => d.sign = neg ∧ d.RoundedTo q
  | none => d = ⟨0⟩

/-- `x` is stored, and what is read back is `x`, or a NaN for a NaN -/
def DoubleRoundTrips (writer reader : Env) (s : State) (rser : SerializerType) (x : Dbl) {σ : Type}
    (h : Handler Call Ans σ) (w : σ) : Prop :=
  ∃ payload flags s' w' d,
    Cmd.exec h (sZvalToPayload writer (.double x) 0) s w = (.done (some (payload, flags)) s', w') ∧
    sMemcachedResultToZval reader rser (.bytes payload) flags = .plain (.double d) ∧
    (d = x ∨ d.IsNan ∧ x.IsNan)

section
variable {writer reader : Env}

/-- bytes that are not compressed are read as they are -/
theorem finished_plain (ud : UserData) (b : Bytes) {flags : Flags}
    (hf : flags &&& memcMaskInternal = 0) (hu : memcValGetUserFlags flags = 0) :
    Finished reader ud b flags (finishPayload writer ud false b flags) := by
  have hplain : compressAbove writer ud false b flags = (b, flags) := if_pos (.inr (.inr rfl))
  apply Finished.of_compressAbove
  · rw [hplain]
    refine .inl ⟨?_, rfl⟩
    rw [memcValHasFlag, memcValGetFlags, hf]
    rfl
  · rw [hplain]
  · rw [hplain]
    exact hu

/-- the text on the wire is all there is to the trip -/
theorem doubleRoundTrips_iff_read {s : State} {rser : SerializerType} {x : Dbl} {σ : Type}
    {h : Handler Call Ans σ} {w : σ} :
    DoubleRoundTrips writer reader s rser x h w ↔
      readDouble reader (.ofBytes (phpMemcachedGFmt writer.zend x)) = x ∨
      (readDouble reader (.ofBytes (phpMemcachedGFmt writer.zend x))).IsNan ∧ x.IsNan := by
  obtain ⟨hclear, huser⟩ := setType_zero_clear memcValIsDouble
  have hfin : Finished reader s.memc.userData (phpMemcachedGFmt writer.zend x)
      (memcValSetType 0 memcValIsDouble) (finishPayload writer s.memc.userData false
        (phpMemcachedGFmt writer.zend x) (memcValSetType 0 memcValIsDouble)) :=
    finished_plain _ _ hclear huser
  have hread : sMemcachedResultToZval reader rser
      (.bytes (finishPayload writer s.memc.userData false (phpMemcachedGFmt writer.zend x)
        (memcValSetType 0 memcValIsDouble)).1)
      (finishPayload writer s.memc.userData false (phpMemcachedGFmt writer.zend x)
        (memcValSetType 0 memcValIsDouble)).2 =
      .plain (.double (readDouble reader (.ofBytes (phpMemcachedGFmt writer.zend x)))) := by
    rw [hfin.carries.read rser, hfin.type]
    rfl
  obtain ⟨s', hexec, -⟩ := exec_of_payloadOut writer
    (show payloadOut writer s (.double x) 0 = .payload _ _ from rfl) h w
  constructor
  · rintro ⟨payload, flags, s'', w'', d, hexec', hread', hd⟩
    rw [hexec] at hexec'
    cases hexec'
    rw [hread] at hread'
    cases hread'
    exact hd
  · exact fun hd => ⟨_, _, s', w, _, hexec, hread, hd⟩

/-! ## reading the text -/

/-- the three names a double may have -/
theorem readDouble_ofBytes (text : Bytes) :
    readDouble reader (.ofBytes text) =
      if text = ascii ['I', 'n', 'f', 'i', 'n', 'i', 't', 'y'] then dblInf
      else if text = ascii ['-', 'I', 'n', 'f', 'i', 'n', 'i', 't', 'y'] then dblNegInf
      else if text = ascii ['N', 'a', 'N'] then dblNan
      else reader.zend.strtod (text ++ [0]) := by
  unfold readDouble
  rw [ZStr.bytes_ofBytes, ZStr.memory_ofBytes]

/-- a numeral is none of the names -/
theorem readDouble_numeral {text : Bytes} {v : Bool × Rat × Bytes}
    (h : readNumeral (text ++ [0]) = some v) :
    readDouble reader (.ofBytes text) = reader.zend.strtod (text ++ [0]) := by
  have hne {name : Bytes} (hname : readNumeral (name ++ [0]) = none) : text ≠ name := by
    rintro rfl
    rw [hname] at h
    cases h
  rw [readDouble_ofBytes, if_neg (hne (by rfl)), if_neg (hne (by rfl)), if_neg (hne (by rfl))]

theorem gFmt_special {zend : Zend} {x : Dbl} {name : Bytes} (hspec : DtoaSpec x (zend.dtoa x))
    (h : (zend.dtoa x).2 = (name, 9999)) :
    phpMemcachedGFmt zend x = (if x.sign then [45] else []) ++ name := by
  have hdtoa : zend.dtoa x = (x.sign, name, 9999) := Prod.ext hspec.sign h
  unfold phpMemcachedGFmt
  rw [hdtoa]
  dsimp only
  rw [if_pos rfl]

theorem readDouble_finite {x : Dbl} (hx : x.IsFinite) (hdtoa : DtoaSpec x (writer.zend.dtoa x))
    (hstrtod : StrtodSpec (phpMemcachedGFmt writer.zend x ++ [0])
      (reader.zend.strtod (phpMemcachedGFmt writer.zend x ++ [0]))) :
    readDouble reader (.ofBytes (phpMemcachedGFmt writer.zend x)) = x := by
  obtain ⟨hdigits, hround⟩ := hdtoa.finite hx
  have hnumeral := gFmt_reads writer.zend
    (show writer.zend.dtoa x = (x.sign, _, _) from Prod.ext hdtoa.sign rfl) hdigits
    (ends_terminator [])
  unfold StrtodSpec at hstrtod
  rw [hnumeral] at hstrtod
  rw [readDouble_numeral hnumeral]
  exact hstrtod.2.unique hround hstrtod.1

theorem readDouble_infinite {x : Dbl} (hx : x.IsInf) (hdtoa : DtoaSpec x (writer.zend.dtoa x)) :
    readDouble reader (.ofBytes (phpMemcachedGFmt writer.zend x)) = x := by
  rw [gFmt_special hdtoa (hdtoa.infinite hx)]
  cases hsign : x.sign with
  | true =>
    show dblNegInf = x
    exact Dbl.eq_of_sign_magnitude hsign.symm hx.symm
  | false =>
    show dblInf = x
    exact Dbl.eq_of_sign_magnitude hsign.symm hx.symm

/-- without the sign a NaN has a name, with it it is not even a numeral -/
theorem isNan_readDouble_iff {x : Dbl} (hx : x.IsNan) (hdtoa : DtoaSpec x (writer.zend.dtoa x))
    (hstrtod : StrtodSpec (phpMemcachedGFmt writer.zend x ++ [0])
      (reader.zend.strtod (phpMemcachedGFmt writer.zend x ++ [0]))) :
    (readDouble reader (.ofBytes (phpMemcachedGFmt writer.zend x))).IsNan ↔ x.sign = false := by
  rw [gFmt_special hdtoa (hdtoa.nan hx)] at hstrtod ⊢
  cases hsign : x.sign with
  | true =>
    rw [hsign] at hstrtod
    refine iff_of_false (fun hnan => ?_) (by decide)
    have hzero : readDouble reader (.ofBytes (ascii ['-', 'N', 'a', 'N'])) = ⟨0⟩ := hstrtod
    change (readDouble reader (.ofBytes (ascii ['-', 'N', 'a', 'N']))).IsNan at hnan
    rw [hzero] at hnan
    exact absurd hnan (by decide)
  | false =>
    refine iff_of_true ?_ rfl
    show dblNan.IsNan
    decide

/-- **Every double makes the trip, finite or not and of either sign, except a NaN whose sign bit is
set.** -/
theorem doubleRoundTrips_iff (writer reader : Env) (s : State) (rser : SerializerType) (x : Dbl)
    (hdtoa : DtoaSpec x (writer.zend.dtoa x))
    (hstrtod : StrtodSpec (phpMemcachedGFmt writer.zend x ++ [0])
      (reader.zend.strtod (phpMemcachedGFmt writer.zend x ++ [0])))
    {σ : Type} (h : Handler Call Ans σ) (w : σ) :
    DoubleRoundTrips writer reader s rser x h w ↔ ¬ (x.IsNan ∧ x.sign = true) := by
  rw [doubleRoundTrips_iff_read]
  rcases Nat.lt_trichotomy x.magnitude Dbl.infMagnitude with hfinite | hinf | hnan
  · refine iff_of_true (.inl (readDouble_finite hfinite hdtoa hstrtod)) fun ⟨hnan, _⟩ => ?_
    exact Nat.lt_asymm hfinite hnan
  · refine iff_of_true (.inl (readDouble_infinite hinf hdtoa)) fun ⟨hnan, _⟩ => ?_
    exact Nat.ne_of_gt hnan hinf
  · have hread : (readDouble reader (.ofBytes (phpMemcachedGFmt writer.zend x))).IsNan ↔
        x.sign = false := isNan_readDouble_iff hnan hdtoa hstrtod
    have hkeeps : (readDouble reader (.ofBytes (phpMemcachedGFmt writer.zend x)) = x ∨
        (readDouble reader (.ofBytes (phpMemcachedGFmt writer.zend x))).IsNan ∧ x.IsNan) ↔
        (readDouble reader (.ofBytes (phpMemcachedGFmt writer.zend x))).IsNan := by
      constructor
      · rintro (heq | ⟨h, -⟩)
        · rw [heq]
          exact hnan
        · exact h
      · exact fun h => .inr ⟨h, hnan⟩
    rw [hkeeps, hread, not_and, Bool.not_eq_true]
    exact ⟨fun h _ => h, fun h => h hnan⟩

end

def minusZero : Dbl := ⟨0x8000000000000000⟩

/-- PHP as far as it knows `-0.0` -/
def zeroEnv : Env :=
  { plainEnv with zend := { plainZend with
    dtoa := fun _ => (true, ascii ['0'], 1), strtod := fun _ => minusZero } }

theorem minusZero_rounded : minusZero.RoundedTo (scaled (ascii ['0']) 0) := by
  have hzero : scaled (ascii ['0']) 0 = Dbl.value 0 := by
    have hval : natVal (ascii ['0']) = 0 := by decide
    have hunits : Dbl.units 0 = 0 := by decide
    rw [scaled, Dbl.value, hval, hunits, Nat.cast_zero, zero_mul, zero_div]
  rw [hzero]
  exact nearest_self Dbl.value_strictMono (by decide)

theorem dtoaSpec_minusZero : DtoaSpec minusZero (true, ascii ['0'], 1) where
  sign := by decide
  finite _ := ⟨⟨by decide, List.all_eq_true.mp rfl, by decide⟩, minusZero_rounded⟩
  infinite h := absurd h (by unfold Dbl.IsInf; decide)
  nan h := absurd h (by decide)

theorem doubleRoundTrips_iff_minusZero :
    DoubleRoundTrips zeroEnv zeroEnv (newObject iniDefaults 1) .php minusZero noServers () ↔
      ¬ (minusZero.IsNan ∧ minusZero.sign = true) :=
  doubleRoundTrips_iff zeroEnv zeroEnv (newObject iniDefaults 1) .php minusZero dtoaSpec_minusZero
    ⟨by decide, minusZero_rounded⟩ noServers ()

/-! ## a NaN with its sign bit set -/

def minusNan : Dbl := ⟨0xFFF8000000000000⟩

/-- PHP as far as it knows this NaN, and a string without a number -/
def nanEnv : Env :=
  { plainEnv with zend := { plainZend with
    dtoa := fun _ => (true, ascii ['N', 'a', 'N'], 9999), strtod := fun _ => ⟨0⟩ } }

/-- the text is `-NaN`, which is read as zero -/
theorem minusNan_becomes_zero :
    DtoaSpec minusNan (nanEnv.zend.dtoa minusNan) ∧
    phpMemcachedGFmt nanEnv.zend minusNan = ascii ['-', 'N', 'a', 'N'] ∧
    StrtodSpec (ascii ['-', 'N', 'a', 'N'] ++ [0])
      (nanEnv.zend.strtod (ascii ['-', 'N', 'a', 'N'] ++ [0])) ∧
    ¬ DoubleRoundTrips nanEnv nanEnv (newObject iniDefaults 1) .php minusNan noServers () := by
  refine ⟨⟨by decide, fun h => ?_, fun h => ?_, fun _ => rfl⟩, by decide, rfl, ?_⟩
  · exact absurd h (by unfold Dbl.IsFinite; decide)
  · exact absurd h (by unfold Dbl.IsInf; decide)
  · rw [doubleRoundTrips_iff_read]
    decide

end PhpMemcached
