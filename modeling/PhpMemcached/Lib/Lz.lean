import Mathlib.Data.List.Basic

/-!
# Lists that repeat themselves

* `Step`      literals, or a copy of what is `dist` places back;
* `Repeats`   a stretch of a list is the one `dist` places before it;
* `Factors`   steps that a list can be split into, from one place to another.

A copy may be longer than its distance: it then goes on with what it has copied.
-/

namespace Lz

variable {α : Type}

/-- `len` symbols, each the one `dist` places before it -/
def copy (dist : Nat) : Nat → List α → List α
  | 0, out => out
  | len + 1, out => copy dist len (out ++ (out[out.length - dist]?).toList)

inductive Step (α : Type) where
  | lits (xs : List α)
  | back (dist len : Nat)

def Step.run (out : List α) : Step α → List α
  | .lits xs => out ++ xs
  | .back dist len => copy dist len out

/-- a copy starts inside the output -/
def Step.Reaches (out : List α) : Step α → Prop
  | .lits _ => True
  | .back dist _ => dist ≤ out.length

/-- the `len` symbols from `pos` on are those `dist` places before them -/
structure Repeats (xs : List α) (pos dist len : Nat) : Prop where
  moves : 0 < dist
  le : dist ≤ pos
  inside : pos + len ≤ xs.length
  same : ∀ i < len, xs[pos + i]? = xs[pos + i - dist]?

/-- steps that make the stretch of `xs` from `a` to `b` behind what is before it -/
inductive Factors (xs : List α) : Nat → Nat → List (Step α) → Prop
  | done {a : Nat} : a ≤ xs.length → Factors xs a a []
  | lits {a b n : Nat} {steps : List (Step α)} : a + n ≤ xs.length → Factors xs (a + n) b steps →
      Factors xs a b (.lits ((xs.drop a).take n) :: steps)
  | back {a b dist len : Nat} {steps : List (Step α)} : Repeats xs a dist len →
      Factors xs (a + len) b steps → Factors xs a b (.back dist len :: steps)

section
variable {xs out : List α} {a b c pos dist len m n : Nat} {steps steps' : List (Step α)}

theorem length_copy (hpos : 0 < dist) (hle : dist ≤ out.length) :
    (copy dist len out).length = out.length + len := by
  induction len generalizing out with
  | zero => rfl
  | succ len ih =>
    have hlt : out.length - dist < out.length := by omega
    have hone : (out ++ (out[out.length - dist]?).toList).length = out.length + 1 := by
      simp [List.getElem?_eq_getElem hlt]
    unfold copy
    rw [ih (by omega), hone]
    omega

/-- at distance one a copy repeats the last symbol -/
theorem copy_one (x : α) (out : List α) (n : Nat) :
    copy 1 n (out ++ [x]) = out ++ [x] ++ List.replicate n x := by
  induction n generalizing out with
  | zero => simp [copy]
  | succ n ih =>
    have hlast : (out ++ [x])[(out ++ [x]).length - 1]? = some x := by simp
    unfold copy
    rw [hlast, Option.toList_some, ih (out ++ [x]), List.replicate_succ]
    simp

/-- **A copy makes a stretch that repeats.** -/
theorem copy_take (h : Repeats xs pos dist len) :
    copy dist len (xs.take pos) = xs.take (pos + len) := by
  induction len generalizing pos with
  | zero => rfl
  | succ len ih =>
    obtain ⟨hpos, hle, hinside, hsame⟩ := h
    have hlength : (xs.take pos).length = pos := by
      rw [List.length_take]
      omega
    have hnext : (xs.take pos)[(xs.take pos).length - dist]? = xs[pos]? := by
      rw [hlength, List.getElem?_take_of_lt (by omega)]
      exact (hsame 0 (Nat.succ_pos len)).symm
    have hrest : Repeats xs (pos + 1) dist len := by
      refine ⟨hpos, by omega, by omega, fun i hi => ?_⟩
      have h := hsame (i + 1) (by omega)
      rwa [show pos + 1 + i = pos + (i + 1) by omega]
    unfold copy
    rw [hnext, ← List.take_add_one, ih hrest]
    congr 1
    omega

/-- a stretch that repeats can be cut -/
theorem Repeats.cut (h : Repeats xs pos dist (m + n)) :
    Repeats xs pos dist m ∧ Repeats xs (pos + m) dist n := by
  obtain ⟨hpos, hle, hinside, hsame⟩ := h
  refine ⟨⟨hpos, hle, by omega, fun i hi => hsame i (by omega)⟩,
    ⟨hpos, by omega, by omega, fun i hi => ?_⟩⟩
  have h := hsame (m + i) (by omega)
  rwa [← Nat.add_assoc] at h

theorem Factors.le (h : Factors xs a b steps) : a ≤ b ∧ b ≤ xs.length := by
  induction h with
  | done hle => exact ⟨Nat.le_refl _, hle⟩
  | lits _ _ ih => omega
  | back _ _ ih => omega

theorem Factors.of_lits {ys : List α} (h : Factors xs a b (.lits ys :: steps)) :
    ys = (xs.drop a).take ys.length ∧ a + ys.length ≤ xs.length ∧
      Factors xs (a + ys.length) b steps := by
  generalize hs : Step.lits ys :: steps = all at h
  cases h with
  | done => cases hs
  | back => cases hs
  | @lits _ _ n _ hle hrest =>
    cases hs
    have hn : ((xs.drop a).take n).length = n := by
      rw [List.length_take, List.length_drop]
      omega
    rw [hn]
    exact ⟨rfl, hle, hrest⟩

theorem Factors.append (h : Factors xs a b steps) (h' : Factors xs b c steps') :
    Factors xs a c (steps ++ steps') := by
  induction h with
  | done _ => exact h'
  | lits hle _ ih => exact .lits hle (ih h')
  | back hrepeats _ ih => exact .back hrepeats (ih h')

end

end Lz
