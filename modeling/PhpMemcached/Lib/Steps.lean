import Mathlib.Logic.Relation

/-!
# Runs of guarded steps

A system with states `S` takes a step `next s a s'` for each action `a`.

* `Step next ok`   a step of some action that meets the guard `ok`;
* `Runs next ok`   any number of them.

What such a step preserves holds after every run (`Runs.invariant`).
-/

namespace Requests
variable {S L : Type} {next : S → L → S → Prop} {ok ok' : S → L → Prop}

/-- one step, of an action that meets the guard -/
def Step (next : S → L → S → Prop) (ok : S → L → Prop) (s s' : S) : Prop :=
  ∃ a, ok s a ∧ next s a s'

abbrev Runs (next : S → L → S → Prop) (ok : S → L → Prop) : S → S → Prop :=
  Relation.ReflTransGen (Step next ok)

theorem Runs.invariant {I : S → Prop} {s s' : S} (hrun : Runs next ok s s') (hs : I s)
    (hstep : ∀ s a s', I s → ok s a → next s a s' → I s') : I s' := by
  induction hrun with
  | refl => exact hs
  | tail _ hlast ih =>
    obtain ⟨a, hok, hnext⟩ := hlast
    exact hstep _ a _ ih hok hnext

/-- one more step -/
theorem Runs.snoc {s s' s'' : S} {a : L} (hrun : Runs next ok s s') (hok : ok s' a)
    (hnext : next s' a s'') : Runs next ok s s'' := Relation.ReflTransGen.tail hrun ⟨a, hok, hnext⟩

end Requests
