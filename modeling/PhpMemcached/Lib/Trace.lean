import PhpMemcached.Lib.Cmd

/-!
# What is seen of a run, whatever the answers

`view` turns the entries of a log into observations.

* `Prog.Traced view Q p`     for all answers: observations and result satisfy `Q`;
* `Cmd.Traced view Q m s`    the same for a command, judged by its outcome;
* `Cmd.Traced.run`           what holds for all answers holds of every run.
-/

namespace Requests
variable {ι κ : Type} {ρ : ι → Type} {τ : κ → Type} {σ α β γ ε S : Type}

namespace Prog

/-- whatever the answers: what `view` sees of the requests, and the result, satisfy `Q` -/
def Traced (view : Entry ι ρ → Option γ) : (List γ → α → Prop) → Prog ι ρ α → Prop
  | Q, .ret a => Q [] a
  | Q, .call i k => ∀ r, (k r).Traced view fun l => Q ((view ⟨i, r⟩).toList ++ l)

variable {view : Entry ι ρ → Option γ}

theorem Traced.run {Q : List γ → α → Prop} {p : Prog ι ρ α} (hp : p.Traced view Q)
    (h : Handler ι ρ σ) (w : σ) : Q ((p.log h w).filterMap view) (p.run h w).1 := by
  induction p generalizing Q w with
  | ret a => exact hp
  | call i k ih =>
    have hk := ih (h i w).1 (hp (h i w).1) (h i w).2
    rw [log_call, run_call, List.filterMap_cons]
    cases hv : view ⟨i, (h i w).1⟩ with
    | none =>
      rw [hv] at hk
      exact hk
    | some x =>
      rw [hv] at hk
      exact hk

theorem Traced.mono {Q Q' : List γ → α → Prop} {p : Prog ι ρ α} (hp : p.Traced view Q)
    (hQ : ∀ l a, Q l a → Q' l a) : p.Traced view Q' := by
  induction p generalizing Q Q' with
  | ret a => exact hQ [] a hp
  | call i k ih => exact fun r => ih r (hp r) fun l a => hQ _ a

theorem Traced.bind {R : List γ → β → Prop} {p : Prog ι ρ α} {f : α → Prog ι ρ β}
    (hp : p.Traced view fun l a => (f a).Traced view fun l' => R (l ++ l')) :
    (p >>= f).Traced view R := by
  induction p generalizing R with
  | ret a => exact hp
  | call i k ih =>
    refine fun r => ih r ((hp r).mono fun l a hf => hf.mono fun l' b hR => ?_)
    rwa [List.append_assoc] at hR

/-- a program among more requests -/
theorem Traced.inl {view : Entry (ι ⊕ κ) (Sum.elim ρ τ) → Option γ} {Q : List γ → α → Prop}
    {p : Prog ι ρ α} (hp : p.Traced (fun e => view ⟨.inl e.req, e.ans⟩) Q) :
    (p.inl (κ := κ) (τ := τ)).Traced view Q := by
  induction p generalizing Q with
  | ret a => exact hp
  | call i k ih => exact fun r => ih r (hp r)

end Prog

namespace Cmd

/-- whatever the answers: what `view` sees of the requests, and the outcome, satisfy `Q` -/
def Traced (view : Entry ι ρ → Option γ) (Q : List γ → Outcome ε S α → Prop) (m : Cmd ι ρ ε S α)
    (s : S) : Prop := (m s).Traced view Q

variable {view : Entry ι ρ → Option γ} {s : S}

section
variable {Q : List γ → Outcome ε S β → Prop}

@[simp] theorem traced_pure (b : β) :
    Traced view Q (pure b : Cmd ι ρ ε S β) s ↔ Q [] (.done b s) := Iff.rfl
@[simp] theorem traced_get_bind (f : S → Cmd ι ρ ε S β) :
    Traced view Q (get >>= f) s ↔ Traced view Q (f s) s := Iff.rfl
@[simp] theorem traced_modify {Q : List γ → Outcome ε S Unit → Prop} (g : S → S) :
    Traced view Q (modify g : Cmd ι ρ ε S Unit) s ↔ Q [] (.done () (g s)) := Iff.rfl
@[simp] theorem traced_modify_bind (g : S → S) (f : Unit → Cmd ι ρ ε S β) :
    Traced view Q (modify g >>= f) s ↔ Traced view Q (f ()) (g s) := Iff.rfl
@[simp] theorem traced_req (i : ι) {Q : List γ → Outcome ε S (ρ i) → Prop} :
    Traced view Q (req i : Cmd ι ρ ε S (ρ i)) s ↔
      ∀ r, Q ((view ⟨i, r⟩).toList ++ []) (.done r s) := Iff.rfl
@[simp] theorem traced_req_bind (i : ι) (f : ρ i → Cmd ι ρ ε S β) :
    Traced view Q (req i >>= f) s ↔
      ∀ r, Traced view (fun l => Q ((view ⟨i, r⟩).toList ++ l)) (f r) s := Iff.rfl

end

theorem Traced.mono {Q Q' : List γ → Outcome ε S α → Prop} {m : Cmd ι ρ ε S α}
    (hm : Traced view Q m s) (hQ : ∀ l o, Q l o → Q' l o) : Traced view Q' m s :=
  Prog.Traced.mono hm hQ

/-- nothing is seen of a command of requests that are not looked at -/
theorem traced_unseen (m : Cmd ι ρ ε S α) (s : S) :
    Traced (fun _ => (none : Option γ)) (fun l _ => l = []) m s := by
  have hprog (p : Prog ι ρ (Outcome ε S α)) :
      p.Traced (fun _ => (none : Option γ)) (fun l _ => l = []) := by
    induction p with
    | ret o => rfl
    | call i k ih => exact ih
  exact hprog (m s)

/-- a sequence is judged part by part, if the first part does not stop -/
theorem Traced.bind {Q : List γ → Outcome ε S β → Prop} {m : Cmd ι ρ ε S α}
    {f : α → Cmd ι ρ ε S β}
    (hm : Traced view (fun l o => ∃ a s', o = .done a s' ∧
      Traced view (fun l' => Q (l ++ l')) (f a) s') m s) : Traced view Q (m >>= f) s := by
  refine Prog.Traced.bind (hm.mono ?_)
  rintro l o ⟨a, s', rfl, hf⟩
  exact hf

theorem Traced.inl {view : Entry (ι ⊕ κ) (Sum.elim ρ τ) → Option γ}
    {Q : List γ → Outcome ε S α → Prop} {m : Cmd ι ρ ε S α}
    (hm : Traced (fun e => view ⟨.inl e.req, e.ans⟩) Q m s) :
    Traced view Q (m.inl (κ := κ) (τ := τ)) s := Prog.Traced.inl hm

theorem Traced.run {Q : List γ → Outcome ε S α → Prop} {m : Cmd ι ρ ε S α} (hm : Traced view Q m s)
    (h : Handler ι ρ σ) (w : σ) : Q ((log h m s w).filterMap view) (exec h m s w).1 :=
  Prog.Traced.run hm h w

end Cmd
end Requests
