import Mathlib.Data.List.Basic

/-!
# Attempts with waits between them

A loop makes an attempt, and others if it is not won: after a contended one it waits first. The
outcomes come from a stream, the `i`-th wait is `wait i`.

* `rounds`              the events of the loop;
* `waitsDue`            the contended attempts that another one follows;
* `Schedule`            what is asked of such a loop;
* `schedule_rounds_iff` the loop does it if its waits are right.
-/

namespace Backoff

inductive Verdict where
  | won | contended | failed
  deriving DecidableEq

inductive Round (ω τ : Type) where
  | attempt (o : ω)
  | wait (t : τ)

section
variable {ω τ : Type} (verdict : ω → Verdict) (wait : Nat → τ)

/-- the events of a loop with `retries` more attempts, `i` waits being over -/
def rounds : Nat → Nat → (Nat → ω) → List (Round ω τ)
  | 0, _, outcomes => [.attempt (outcomes 0)]
  | retries + 1, i, outcomes =>
    .attempt (outcomes 0) :: match verdict (outcomes 0) with
      | .won => []
      | .contended => .wait (wait i) :: rounds retries (i + 1) fun n => outcomes (n + 1)
      | .failed => rounds retries i fun n => outcomes (n + 1)

/-- the attempts that are contended and not the last -/
def waitsDue : Nat → (Nat → ω) → Nat
  | 0, _ => 0
  | retries + 1, outcomes => match verdict (outcomes 0) with
    | .won => 0
    | .contended => waitsDue retries (fun n => outcomes (n + 1)) + 1
    | .failed => waitsDue retries fun n => outcomes (n + 1)

def attempts (l : List (Round ω τ)) : List ω :=
  l.filterMap fun | .attempt o => some o | .wait _ => none

def waits (l : List (Round ω τ)) : List τ :=
  l.filterMap fun | .attempt _ => none | .wait t => some t

/-- one attempt and `retries` more at most, none after one that is won; a wait stands between a
contended attempt and another one; the `i`-th wait is a `due i` -/
structure Schedule (retries : Nat) (due : Nat → τ → Prop) (l : List (Round ω τ)) : Prop where
  bounded : (attempts l).length ≤ 1 + retries
  stops : ∀ l₁ o l₂, l = l₁ ++ .attempt o :: l₂ → verdict o = .won → l₂ = []
  between : ∀ l₁ t l₂, l = l₁ ++ .wait t :: l₂ →
    (∃ l₀ o, l₁ = l₀ ++ [.attempt o] ∧ verdict o = .contended) ∧ ∃ o l₃, l₂ = .attempt o :: l₃
  due : ∀ i t, (waits l)[i]? = some t → due i t

theorem length_attempts_rounds (retries i : Nat) (outcomes : Nat → ω) :
    (attempts (rounds verdict wait retries i outcomes)).length ≤ 1 + retries := by
  induction retries generalizing i outcomes with
  | zero => exact Nat.le_refl 1
  | succ retries ih =>
    have hcons (l : List (Round ω τ)) (h : (attempts l).length ≤ 1 + retries) :
        (attempts (.attempt (outcomes 0) :: l)).length ≤ 1 + (retries + 1) := Nat.succ_le_succ h
    unfold rounds
    apply hcons
    split
    · exact Nat.zero_le _
    · exact ih _ _
    · exact ih _ _

theorem waits_rounds (retries i : Nat) (outcomes : Nat → ω) :
    waits (rounds verdict wait retries i outcomes) =
      (List.range (waitsDue verdict retries outcomes)).map fun n => wait (i + n) := by
  induction retries generalizing i outcomes with
  | zero => rfl
  | succ retries ih =>
    unfold rounds waitsDue
    cases verdict (outcomes 0) with
    | won => rfl
    | contended =>
      show wait i :: waits (rounds verdict wait retries (i + 1) _) = _
      rw [ih, List.range_succ_eq_map, List.map_cons, List.map_map]
      refine congrArg _ (List.map_congr_left fun n _ => congrArg wait ?_)
      show i + 1 + n = i + (n + 1)
      omega
    | failed => exact ih _ _

/-- every loop starts with an attempt -/
theorem rounds_cons (retries i : Nat) (outcomes : Nat → ω) :
    ∃ l, rounds verdict wait retries i outcomes = .attempt (outcomes 0) :: l := by
  cases retries with
  | zero => exact ⟨_, rfl⟩
  | succ retries => exact ⟨_, rfl⟩

theorem stops_rounds (retries i : Nat) (outcomes : Nat → ω) (l₁ l₂ : List (Round ω τ)) (o : ω)
    (h : rounds verdict wait retries i outcomes = l₁ ++ .attempt o :: l₂)
    (ho : verdict o = .won) : l₂ = [] := by
  induction retries generalizing i outcomes l₁ with
  | zero =>
    unfold rounds at h
    cases l₁ with
    | nil =>
      cases h
      rfl
    | cons e l₁ => exact absurd (List.cons.inj h).2.symm (List.append_ne_nil_of_right_ne_nil _
        (List.cons_ne_nil _ _))
  | succ retries ih =>
    unfold rounds at h
    cases l₁ with
    | nil =>
      obtain ⟨hev, hl⟩ := List.cons.inj h
      cases hev
      rw [ho] at hl
      exact hl.symm
    | cons e l₁ =>
      obtain ⟨-, hl⟩ := List.cons.inj h
      cases hv : verdict (outcomes 0) with
      | won =>
        rw [hv] at hl
        exact absurd hl.symm (List.append_ne_nil_of_right_ne_nil _ (List.cons_ne_nil _ _))
      | contended =>
        rw [hv] at hl
        cases l₁ with
        | nil => cases (List.cons.inj hl).1
        | cons e' l₁ => exact ih _ _ l₁ (List.cons.inj hl).2
      | failed =>
        rw [hv] at hl
        exact ih _ _ l₁ hl

theorem between_rounds (retries i : Nat) (outcomes : Nat → ω) (l₁ l₂ : List (Round ω τ)) (t : τ)
    (h : rounds verdict wait retries i outcomes = l₁ ++ .wait t :: l₂) :
    (∃ l₀ o, l₁ = l₀ ++ [.attempt o] ∧ verdict o = .contended) ∧
      ∃ o l₃, l₂ = .attempt o :: l₃ := by
  induction retries generalizing i outcomes l₁ with
  | zero =>
    unfold rounds at h
    cases l₁ with
    | nil => cases (List.cons.inj h).1
    | cons e l₁ => exact absurd (List.cons.inj h).2.symm (List.append_ne_nil_of_right_ne_nil _
        (List.cons_ne_nil _ _))
  | succ retries ih =>
    unfold rounds at h
    cases l₁ with
    | nil => cases (List.cons.inj h).1
    | cons e l₁ =>
      obtain ⟨rfl, hl⟩ := List.cons.inj h
      -- a later wait is one of the rounds that follow
      have hlater {l₁' : List (Round ω τ)} {i : Nat} (l₀ : List (Round ω τ))
          (hl : rounds verdict wait retries i (fun n => outcomes (n + 1)) =
            l₁' ++ .wait t :: l₂) :
          (∃ l o, l₀ ++ l₁' = l ++ [.attempt o] ∧ verdict o = .contended) ∧
            ∃ o l₃, l₂ = .attempt o :: l₃ := by
        obtain ⟨⟨l, o, rfl, ho⟩, hnext⟩ := ih i _ _ hl
        exact ⟨⟨l₀ ++ l, o, (List.append_assoc _ _ _).symm, ho⟩, hnext⟩
      cases hv : verdict (outcomes 0) with
      | won =>
        rw [hv] at hl
        exact absurd hl.symm (List.append_ne_nil_of_right_ne_nil _ (List.cons_ne_nil _ _))
      | contended =>
        rw [hv] at hl
        cases l₁ with
        | nil =>
          obtain ⟨-, hrest⟩ := List.cons.inj hl
          obtain ⟨l, hl'⟩ := rounds_cons verdict wait retries (i + 1) fun n => outcomes (n + 1)
          exact ⟨⟨[], _, rfl, hv⟩, _, l, hrest.symm.trans hl'⟩
        | cons e' l₁ => exact hlater [_, e'] (List.cons.inj hl).2
      | failed =>
        rw [hv] at hl
        exact hlater [_] hl

/-- **The loop keeps the schedule exactly if its waits are those that are due.** -/
theorem schedule_rounds_iff (retries : Nat) (due : Nat → τ → Prop) (outcomes : Nat → ω) :
    Schedule verdict retries due (rounds verdict wait retries 0 outcomes) ↔
      ∀ i < waitsDue verdict retries outcomes, due i (wait i) := by
  have hget (i : Nat) : (waits (rounds verdict wait retries 0 outcomes))[i]? =
      if i < waitsDue verdict retries outcomes then some (wait i) else none := by
    rw [waits_rounds, List.getElem?_map]
    split
    · rename_i hlt
      rw [List.getElem?_range hlt]
      exact congrArg (fun n => some (wait n)) (Nat.zero_add i)
    · rename_i hge
      rw [List.getElem?_eq_none (by rw [List.length_range]; omega)]
      rfl
  constructor
  · intro h i hi
    exact h.due i _ ((hget i).trans (if_pos hi))
  · intro h
    refine ⟨length_attempts_rounds verdict wait retries 0 outcomes,
      fun l₁ o l₂ hl ho => stops_rounds verdict wait retries 0 outcomes l₁ l₂ o hl ho,
      fun l₁ t l₂ hl => between_rounds verdict wait retries 0 outcomes l₁ l₂ t hl, ?_⟩
    intro i t hit
    rw [hget] at hit
    split at hit
    · rename_i hi
      cases hit
      exact h i hi
    · cases hit

end

end Backoff
