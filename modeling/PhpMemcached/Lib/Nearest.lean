import Mathlib.Algebra.Order.Field.Basic
import Mathlib.Algebra.Order.AbsoluteValue.Basic
import Mathlib.Order.Monotone.Basic
import Mathlib.Tactic.Linarith

/-!
# Rounding to the nearest of a sequence of values

The values `v 0 < v 1 < ...` up to `v top` are the ones that can be represented, each by its index.

* `Nearest`           an index whose value is nearest; of two that are, the even one;
* `nearest_unique`    there is one at most;
* `nearest_self`      a value is nearest to itself.
-/

namespace Rounding

variable {K : Type*} [Field K] [LinearOrder K] [IsStrictOrderedRing K]

/-- round to nearest, ties to even -/
structure Nearest (v : Nat → K) (top : Nat) (q : K) (m : Nat) : Prop where
  le : m ≤ top
  near : ∀ m' ≤ top, |q - v m| ≤ |q - v m'|
  even : ∀ m' ≤ top, m' ≠ m → |q - v m'| = |q - v m| → m % 2 = 0

section
variable {v : Nat → K} {top : Nat} {q : K}

/-- a value between two others that are equally near is nearer -/
theorem abs_sub_lt_of_between {x y z : K} (hxy : x < y) (hyz : y < z) (h : |q - x| = |q - z|) :
    |q - y| < |q - x| := by
  rcases abs_eq_abs.mp h with heq | heq
  · exact absurd (sub_right_injective heq) (ne_of_lt (hxy.trans hyz))
  · -- `q` is in the middle of `x` and `z`
    have hmiddle : q - x = z - q := by rw [heq, neg_sub]
    have hpos : 0 ≤ q - x := by linarith
    rw [abs_of_nonneg hpos, abs_lt]
    constructor <;> linarith

theorem nearest_unique_of_lt (hv : StrictMono v) {m m' : Nat} (h : Nearest v top q m)
    (h' : Nearest v top q m') (hlt : m < m') : False := by
  have heq : |q - v m| = |q - v m'| := le_antisymm (h.near m' h'.le) (h'.near m h.le)
  have heven : m % 2 = 0 := h.even m' h'.le (Nat.ne_of_gt hlt) heq.symm
  have heven' : m' % 2 = 0 := h'.even m h.le (Nat.ne_of_lt hlt) heq
  have hnear := abs_sub_lt_of_between (hv (Nat.lt_succ_self m))
    (hv (show m + 1 < m' by omega)) heq
  exact absurd (h.near (m + 1) (by have := h'.le; omega)) (not_le.mpr hnear)

theorem nearest_unique (hv : StrictMono v) {m m' : Nat} (h : Nearest v top q m)
    (h' : Nearest v top q m') : m = m' := by
  rcases Nat.lt_trichotomy m m' with hlt | heq | hgt
  · exact (nearest_unique_of_lt hv h h' hlt).elim
  · exact heq
  · exact (nearest_unique_of_lt hv h' h hgt).elim

theorem nearest_self (hv : StrictMono v) {m : Nat} (hm : m ≤ top) : Nearest v top (v m) m where
  le := hm
  near m' _ := by
    rw [sub_self, abs_zero]
    exact abs_nonneg _
  even m' _ hne h := by
    rw [sub_self, abs_zero, abs_eq_zero, sub_eq_zero] at h
    exact absurd (hv.injective h).symm hne

end

end Rounding
