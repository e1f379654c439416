import Mathlib.Tactic.Linarith
import Mathlib.Data.Nat.Log

/-!
# Rounding to a number of binary digits

* `ulp p n`       the weight of the last of the first `p` digits of `n`;
* `nearest u n`   the multiple of `u` nearest to `n`, the even one of two;
* `round p n`     `n` rounded to `p` digits.

`round p` is the identity on the multiples of the unit (`round_eq_self_iff`), and which numbers
alone round to what they round to is `alone_iff`.
-/

namespace Binary

def ulp (p n : Nat) : Nat := 2 ^ (n.log2 + 1 - p)

def nearest (u n : Nat) : Nat :=
  if 2 * (n % u) < u ∨ (2 * (n % u) = u ∧ n / u % 2 = 0) then n / u * u else (n / u + 1) * u

def round (p n : Nat) : Nat := nearest (ulp p n) n

/-! ## nearest multiples -/

section
variable {u n q r k : Nat}

theorem nearest_add (hr : r < u) : nearest u (q * u + r) =
    if 2 * r < u ∨ (2 * r = u ∧ q % 2 = 0) then q * u else (q + 1) * u := by
  have hu : 0 < u := Nat.lt_of_le_of_lt (Nat.zero_le r) hr
  have hmod : (q * u + r) % u = r := by
    rw [Nat.mul_comm, Nat.mul_add_mod, Nat.mod_eq_of_lt hr]
  have hdiv : (q * u + r) / u = q := by
    rw [Nat.mul_comm, Nat.mul_add_div hu, Nat.div_eq_of_lt hr, Nat.add_zero]
  unfold nearest
  rw [hmod, hdiv]

theorem dvd_nearest (u n : Nat) : u ∣ nearest u n := by
  unfold nearest
  split_ifs
  · exact Dvd.intro_left _ rfl
  · exact Dvd.intro_left _ rfl

theorem nearest_eq_self_iff (hu : 0 < u) : nearest u n = n ↔ u ∣ n := by
  constructor
  · intro h
    exact h ▸ dvd_nearest u n
  · rintro ⟨q, rfl⟩
    have h := nearest_add (q := q) hu
    rw [Nat.add_zero, Nat.mul_zero, if_pos (.inl hu)] at h
    rw [Nat.mul_comm, h]

/-- a multiple below stays below -/
theorem le_nearest (hu : 0 < u) (h : k * u ≤ n) : k * u ≤ nearest u n := by
  have hk : k ≤ n / u := (Nat.le_div_iff_mul_le hu).mpr h
  unfold nearest
  split_ifs
  · exact Nat.mul_le_mul_right u hk
  · exact Nat.mul_le_mul_right u (Nat.le_succ_of_le hk)

theorem nearest_le (hu : 0 < u) (h : n ≤ k * u) : nearest u n ≤ k * u := by
  by_cases hd : u ∣ n
  · rw [(nearest_eq_self_iff hu).mpr hd]
    exact h
  · have hlt : n < k * u := Nat.lt_of_le_of_ne h fun heq => hd (heq ▸ Dvd.intro_left k rfl)
    have hk : n / u < k := (Nat.div_lt_iff_lt_mul hu).mpr hlt
    unfold nearest
    split_ifs
    · exact Nat.mul_le_mul_right u hk.le
    · exact Nat.mul_le_mul_right u hk

end

/-! ## digits -/

section
variable {p n e : Nat}

theorem ulp_pos (p n : Nat) : 0 < ulp p n := Nat.two_pow_pos _

theorem log2_eq (h : 2 ^ e ≤ n) (h' : n < 2 ^ (e + 1)) : n.log2 = e :=
  (Nat.log2_eq_iff (Nat.ne_of_gt (Nat.lt_of_lt_of_le (Nat.two_pow_pos e) h))).mpr ⟨h, h'⟩

theorem ulp_eq (h : 2 ^ e ≤ n) (h' : n < 2 ^ (e + 1)) : ulp p n = 2 ^ (e + 1 - p) := by
  rw [ulp, log2_eq h h']

theorem round_eq_self_iff : round p n = n ↔ ulp p n ∣ n := nearest_eq_self_iff (ulp_pos p n)

variable (hp : 0 < p)
include hp

theorem ulp_of_lt (h : n < 2 ^ p) : ulp p n = 1 := by
  have hlog : n.log2 + 1 ≤ p := by
    by_cases hn : n = 0
    · rw [hn, Nat.log2_zero]
      exact hp
    · exact (Nat.log2_lt hn).mpr h
  rw [ulp, Nat.sub_eq_zero_of_le hlog, Nat.pow_zero]

/-- `p` digits are enough -/
theorem round_of_lt (h : n < 2 ^ p) : round p n = n :=
  round_eq_self_iff.mpr (ulp_of_lt hp h ▸ Nat.one_dvd n)

theorem ulp_dvd_two_pow (h : 2 ^ e ≤ n) (h' : n < 2 ^ (e + 1)) : ulp p n ∣ 2 ^ e := by
  rw [ulp_eq h h']
  exact Nat.pow_dvd_pow 2 (by omega)

/-- a number stays between the powers of two it is between -/
theorem two_pow_le_round (h : 2 ^ e ≤ n) : 2 ^ e ≤ round p n := by
  have hn : n ≠ 0 := Nat.ne_of_gt (Nat.lt_of_lt_of_le (Nat.two_pow_pos e) h)
  have hlog := Nat.log2_self_le hn
  obtain ⟨k, hk⟩ := ulp_dvd_two_pow hp hlog Nat.lt_log2_self
  rw [Nat.mul_comm] at hk
  calc 2 ^ e ≤ 2 ^ n.log2 := Nat.pow_le_pow_right (by decide) ((Nat.le_log2 hn).mpr h)
    _ = k * ulp p n := hk
    _ ≤ round p n := le_nearest (ulp_pos p n) (hk ▸ hlog)

theorem round_le_two_pow (h : n < 2 ^ e) : round p n ≤ 2 ^ e := by
  by_cases hn : n = 0
  · subst hn
    rw [round_of_lt hp (Nat.two_pow_pos p)]
    exact Nat.zero_le _
  · have hlog := Nat.log2_self_le hn
    obtain ⟨k, hk⟩ := ulp_dvd_two_pow hp hlog Nat.lt_log2_self
    have hk₂ : 2 ^ (n.log2 + 1) = (2 * k) * ulp p n := by
      rw [Nat.pow_succ', hk, Nat.mul_comm (ulp p n), Nat.mul_assoc]
    calc round p n ≤ (2 * k) * ulp p n :=
          nearest_le (ulp_pos p n) (hk₂ ▸ Nat.le_of_lt Nat.lt_log2_self)
      _ = 2 ^ (n.log2 + 1) := hk₂.symm
      _ ≤ 2 ^ e := Nat.pow_le_pow_right (by decide) ((Nat.log2_lt hn).mpr h)

theorem round_round : round p (round p n) = round p n := by
  rw [round_eq_self_iff]
  by_cases hn : n = 0
  · subst hn
    rw [round_of_lt hp (Nat.two_pow_pos p)]
    exact Nat.dvd_zero _
  · have hlow := two_pow_le_round hp (Nat.log2_self_le hn)
    rcases Nat.lt_or_ge (round p n) (2 ^ (n.log2 + 1)) with hlt | hge
    · have hulp : ulp p (round p n) = ulp p n := ulp_eq hlow hlt
      rw [hulp]
      exact dvd_nearest (ulp p n) n
    · have heq : round p n = 2 ^ (n.log2 + 1) :=
        Nat.le_antisymm (round_le_two_pow hp Nat.lt_log2_self) hge
      rw [heq]
      exact ulp_dvd_two_pow hp (Nat.le_refl _) (Nat.pow_lt_pow_right (by decide) (Nat.lt_succ_self _))

end

/-! ## numbers that are alone -/

section
variable {p k n : Nat} (hp : 2 ≤ p)
include hp

/-- an even number of `p + 1` digits with an odd half is rounded to by itself alone -/
theorem alone_of_odd_half (hlow : 2 ^ p ≤ n) (hhigh : n < 2 ^ (p + 1)) (hodd : n % 4 = 2) {m : Nat}
    (hm : round p m = round p n) : m = n := by
  have hp₀ : 0 < p := by omega
  have hulp : ∀ x, 2 ^ p ≤ x → x < 2 ^ (p + 1) → ulp p x = 2 := fun x h h' => by
    rw [ulp_eq h h', Nat.add_sub_cancel_left, Nat.pow_one]
  have hn : round p n = n := round_eq_self_iff.mpr (hulp n hlow hhigh ▸ by omega)
  rw [hn] at hm
  rcases Nat.lt_or_ge m (2 ^ p) with hlt | hge
  · rw [round_of_lt hp₀ hlt] at hm
    exact hm
  · rcases Nat.lt_or_ge m (2 ^ (p + 1)) with hlt | hge'
    · rw [round, hulp m hge hlt, nearest] at hm
      split_ifs at hm <;> omega
    · have := two_pow_le_round hp₀ hge'
      omega

/-- a rounded number of more digits has a neighbour that is rounded to it -/
theorem exists_of_round_eq (hlow : 2 ^ p ≤ n) (hn : round p n = n)
    (hodd : ¬ (2 ^ p < n ∧ n < 2 ^ (p + 1) ∧ n % 4 = 2)) :
    n + 1 < 2 ^ (n.log2 + 1) ∧ round p (n + 1) = n := by
  have hn₀ : n ≠ 0 := Nat.ne_of_gt (Nat.lt_of_lt_of_le (Nat.two_pow_pos p) hlow)
  have hp_le : p ≤ n.log2 := (Nat.le_log2 hn₀).mpr hlow
  have hself := Nat.log2_self_le hn₀
  have hlt : n < 2 ^ (n.log2 + 1) := Nat.lt_log2_self
  obtain ⟨q, hq⟩ : ulp p n ∣ n := round_eq_self_iff.mp hn
  obtain ⟨d, hd⟩ := Nat.exists_eq_add_of_le hp_le
  have hu : ulp p n = 2 * 2 ^ d := by
    rw [ulp, hd, show p + d + 1 - p = d + 1 by omega, Nat.pow_succ']
  have hpow : 2 ^ (n.log2 + 1) = 2 ^ p * ulp p n := by
    rw [hu, hd, Nat.pow_succ', Nat.pow_add, Nat.mul_left_comm]
  generalize ulp p n = u at hq hu hpow
  have hd₁ : 0 < 2 ^ d := Nat.two_pow_pos d
  -- the next multiple is a power of two at most
  have hnext : n + 1 < 2 ^ (n.log2 + 1) := by
    have hqlt : q < 2 ^ p := by
      have h := hlt
      rw [hpow, hq, Nat.mul_comm] at h
      exact Nat.lt_of_mul_lt_mul_right h
    have hle : (q + 1) * u ≤ 2 ^ p * u := Nat.mul_le_mul_right u hqlt
    rw [hpow]
    calc n + 1 < n + u := by omega
      _ = (q + 1) * u := by rw [hq, Nat.succ_mul, Nat.mul_comm u q]
      _ ≤ 2 ^ p * u := hle
  refine ⟨hnext, ?_⟩
  have hulp : ulp p (n + 1) = u := by
    rw [ulp_eq (Nat.le_succ_of_le hself) hnext, hd, hu, show p + d + 1 - p = d + 1 by omega,
      Nat.pow_succ']
  have hdown : 2 * 1 < u ∨ (2 * 1 = u ∧ q % 2 = 0) := by
    rcases Nat.eq_zero_or_pos d with rfl | hd_pos
    · refine .inr ⟨hu.symm, ?_⟩
      by_contra hq_odd
      rw [hu, Nat.pow_zero, Nat.mul_one] at hq
      have h4 : n % 4 = 2 := by omega
      have hp4 : 2 ^ p % 4 = 0 := by
        obtain ⟨j, rfl⟩ := Nat.exists_eq_add_of_le hp
        rw [Nat.pow_add]
        omega
      have hp1 : 2 ^ (p + 1) = 2 ^ p * 2 := Nat.pow_succ 2 p
      rw [hd] at hlt
      exact hodd ⟨by omega, hlt, h4⟩
    · have h2 : 2 ^ 1 ≤ 2 ^ d := Nat.pow_le_pow_right (by decide) hd_pos
      exact .inl (by omega)
  have hround : round p (n + 1) = nearest u (q * u + 1) := by
    rw [round, hulp, hq, Nat.mul_comm u q]
  rw [hround, nearest_add (by omega), if_pos hdown, hq, Nat.mul_comm]

/-- the last two numbers below `2 ^ k` are rounded up to it -/
theorem round_top (hk : p + 2 ≤ k) (hlow : 2 ^ k - 2 ≤ n) (hhigh : n < 2 ^ k) :
    round p n = 2 ^ k := by
  obtain ⟨d, rfl⟩ := Nat.exists_eq_add_of_le hk
  have hpow : 2 ^ (p + 2 + d) = 2 ^ p * (4 * 2 ^ d) := by
    rw [Nat.pow_add, Nat.pow_add, Nat.mul_assoc]
  have hp4 : 4 ≤ 2 ^ p := Nat.pow_le_pow_right (n := 2) (by decide) hp
  have hd₁ : 0 < 2 ^ d := Nat.two_pow_pos d
  have hhalf : 2 ^ (p + 1 + d) ≤ n := by
    have hdouble : 2 ^ (p + 2 + d) = 2 * 2 ^ (p + 1 + d) := by
      rw [show p + 2 + d = p + 1 + d + 1 by omega, Nat.pow_succ']
    have : 2 ^ 1 ≤ 2 ^ (p + 1 + d) := Nat.pow_le_pow_right (by decide) (by omega)
    omega
  have hulp : ulp p n = 4 * 2 ^ d := by
    rw [ulp_eq hhalf (by rwa [show p + 1 + d + 1 = p + 2 + d by omega]),
      show p + 1 + d + 1 - p = 2 + d by omega, Nat.pow_add]
  have hmul : (2 ^ p - 1) * (4 * 2 ^ d) + 4 * 2 ^ d = 2 ^ (p + 2 + d) := by
    rw [hpow, ← Nat.succ_mul, Nat.succ_eq_add_one, Nat.sub_add_cancel (by omega)]
  obtain ⟨r, hr⟩ := Nat.exists_eq_add_of_le
    (show (2 ^ p - 1) * (4 * 2 ^ d) ≤ n by omega)
  have hp2 : (2 ^ p - 1) % 2 = 1 := by
    obtain ⟨j, rfl⟩ := Nat.exists_eq_add_of_le hp
    rw [Nat.pow_add] at hp4 ⊢
    omega
  rw [round, hulp, hr, nearest_add (by omega), if_neg (by omega), Nat.succ_mul]
  exact hmul

/-- below `2 ^ k`, these are rounded to by themselves alone -/
theorem alone_iff (hk : p + 2 ≤ k) (hn : n < 2 ^ k) :
    (∀ m < 2 ^ k, round p m = round p n → m = n) ↔
      n < 2 ^ p ∨ (2 ^ p < n ∧ n < 2 ^ (p + 1) ∧ n % 4 = 2) := by
  have hp₀ : 0 < p := by omega
  constructor
  · intro halone
    by_contra hnot
    rw [not_or, Nat.not_lt] at hnot
    by_cases hround : round p n = n
    · obtain ⟨hnext, hsame⟩ := exists_of_round_eq hp hnot.1 hround hnot.2
      have hlt : n + 1 < 2 ^ k := by
        have hn₀ : n ≠ 0 := Nat.ne_of_gt (Nat.lt_of_lt_of_le (Nat.two_pow_pos p) hnot.1)
        exact Nat.lt_of_lt_of_le hnext
          (Nat.pow_le_pow_right (by decide) ((Nat.log2_lt hn₀).mpr hn))
      have := halone (n + 1) hlt (hsame.trans hround.symm)
      omega
    · rcases Nat.lt_or_eq_of_le (round_le_two_pow hp₀ hn) with hlt | htop
      · exact hround (halone _ hlt (round_round hp₀))
      · have hk₂ : 2 ^ 2 ≤ 2 ^ k := Nat.pow_le_pow_right (by decide) (by omega)
        have h₁ := halone (2 ^ k - 1) (by omega)
          ((round_top hp hk (by omega) (by omega)).trans htop.symm)
        have h₂ := halone (2 ^ k - 2) (by omega)
          ((round_top hp hk (by omega) (by omega)).trans htop.symm)
        omega
  · rintro (hlt | ⟨hlow, hhigh, hodd⟩) m hm hround
    · rw [round_of_lt hp₀ hlt] at hround
      rcases Nat.lt_or_ge m (2 ^ p) with hmlt | hmge
      · rwa [round_of_lt hp₀ hmlt] at hround
      · have := two_pow_le_round hp₀ hmge
        omega
    · exact alone_of_odd_half hp hlow.le hhigh hodd hround

end

end Binary
