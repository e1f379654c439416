import Mathlib.Init
import Mathlib.Tactic.TypeStar

/-!
# Request programs

A program `Prog ι ρ α` computes an `α` and, on the way, issues requests `i : ι`, each answered by
some `ρ i`.  What a request means is left open: the same program can be

* `run h p s`      run against an answering machine `h` with a state of its own;
* `log h p s`      the requests of that run with their answers, in order;
* `Sat φ Q p`      judged over ALL answers: every request it can issue satisfies `φ`, every result
                   it can return satisfies `Q`;
* `Under ψ Q p`    judged over the answers that satisfy `ψ`: every result satisfies `Q`.

`Sat` composes over `bind` (`sat_bind`), and what holds for all answers holds for every run
(`Sat.run`, `Sat.log`); for the requests the converse is true as well (`sat_of_log`).
-/

namespace Requests

/-- a program that issues requests of `ι`, the request `i` being answered by a `ρ i` -/
inductive Prog (ι : Type) (ρ : ι → Type) (α : Type) : Type where
  | ret (a : α)
  | call (i : ι) (k : ρ i → Prog ι ρ α)

/-- an answering machine with states `σ` -/
def Handler (ι : Type) (ρ : ι → Type) (σ : Type) : Type := (i : ι) → σ → ρ i × σ

/-- a request with its answer -/
structure Entry (ι : Type) (ρ : ι → Type) where
  req : ι
  ans : ρ req

namespace Prog
variable {ι : Type} {ρ : ι → Type} {σ α β γ : Type}

def bind : Prog ι ρ α → (α → Prog ι ρ β) → Prog ι ρ β
  | .ret a, f => f a
  | .call i k, f => .call i fun r => (k r).bind f

instance : Monad (Prog ι ρ) where
  pure := .ret
  bind := .bind

/-- issue one request -/
def req (i : ι) : Prog ι ρ (ρ i) := .call i .ret

theorem bind_ret (p : Prog ι ρ α) : p.bind .ret = p := by
  induction p with
  | ret a => rfl
  | call i k ih => exact congrArg (Prog.call i) (funext ih)

theorem bind_assoc (p : Prog ι ρ α) (f : α → Prog ι ρ β) (g : β → Prog ι ρ γ) :
    (p.bind f).bind g = p.bind fun a => (f a).bind g := by
  induction p with
  | ret a => rfl
  | call i k ih => exact congrArg (Prog.call i) (funext ih)

instance : LawfulMonad (Prog ι ρ) :=
  LawfulMonad.mk' _ bind_ret (fun _ _ => rfl) bind_assoc

@[simp] theorem pure_eq (a : α) : (pure a : Prog ι ρ α) = .ret a := rfl
@[simp] theorem ret_bind (a : α) (f : α → Prog ι ρ β) : (.ret a >>= f : Prog ι ρ β) = f a := rfl
@[simp] theorem call_bind (i : ι) (k : ρ i → Prog ι ρ α) (f : α → Prog ι ρ β) :
    (.call i k >>= f : Prog ι ρ β) = .call i fun r => k r >>= f := rfl
@[simp] theorem req_bind (i : ι) (f : ρ i → Prog ι ρ β) :
    (req i >>= f : Prog ι ρ β) = .call i f := rfl

/-! ## runs -/

/-- run against the machine `h`, started in `s` -/
def run (h : Handler ι ρ σ) : Prog ι ρ α → σ → α × σ
  | .ret a, s => (a, s)
  | .call i k, s => (k (h i s).1).run h (h i s).2

/-- the requests of the run, with their answers -/
def log (h : Handler ι ρ σ) : Prog ι ρ α → σ → List (Entry ι ρ)
  | .ret _, _ => []
  | .call i k, s => ⟨i, (h i s).1⟩ :: (k (h i s).1).log h (h i s).2

section
variable (h : Handler ι ρ σ)

@[simp] theorem run_ret (a : α) (s : σ) : (Prog.ret a : Prog ι ρ α).run h s = (a, s) := rfl
@[simp] theorem run_call (i : ι) (k : ρ i → Prog ι ρ α) (s : σ) :
    (Prog.call i k).run h s = (k (h i s).1).run h (h i s).2 := rfl
@[simp] theorem run_req (i : ι) (s : σ) : (req i : Prog ι ρ (ρ i)).run h s = h i s := rfl
@[simp] theorem log_ret (a : α) (s : σ) : (Prog.ret a : Prog ι ρ α).log h s = [] := rfl
@[simp] theorem log_call (i : ι) (k : ρ i → Prog ι ρ α) (s : σ) :
    (Prog.call i k).log h s = ⟨i, (h i s).1⟩ :: (k (h i s).1).log h (h i s).2 := rfl

theorem run_bind (p : Prog ι ρ α) (f : α → Prog ι ρ β) (s : σ) :
    (p >>= f).run h s = (f (p.run h s).1).run h (p.run h s).2 := by
  induction p generalizing s with
  | ret a => rfl
  | call i k ih => exact ih _ _

theorem log_bind (p : Prog ι ρ α) (f : α → Prog ι ρ β) (s : σ) :
    (p >>= f).log h s = p.log h s ++ (f (p.run h s).1).log h (p.run h s).2 := by
  induction p generalizing s with
  | ret a => rfl
  | call i k ih => exact congrArg (_ :: ·) (ih _ _)

end

/-! ## all answers -/

/-- whatever the answers: every request satisfies `φ`, every result satisfies `Q` -/
def Sat (φ : ι → Prop) (Q : α → Prop) : Prog ι ρ α → Prop
  | .ret a => Q a
  | .call i k => φ i ∧ ∀ r, (k r).Sat φ Q

section
variable {φ φ' : ι → Prop} {Q Q' : α → Prop} {R : β → Prop}

@[simp] theorem sat_ret (a : α) : (Prog.ret a : Prog ι ρ α).Sat φ Q ↔ Q a := Iff.rfl
@[simp] theorem sat_call (i : ι) (k : ρ i → Prog ι ρ α) :
    (Prog.call i k).Sat φ Q ↔ φ i ∧ ∀ r, (k r).Sat φ Q := Iff.rfl

theorem Sat.bind {p : Prog ι ρ α} {f : α → Prog ι ρ β} (hp : p.Sat φ Q)
    (hf : ∀ a, Q a → (f a).Sat φ R) : (p >>= f).Sat φ R := by
  induction p with
  | ret a => exact hf a hp
  | call i k ih => exact ⟨hp.1, fun r => ih r (hp.2 r)⟩

/-- a sequence is judged part by part -/
theorem sat_bind (p : Prog ι ρ α) (f : α → Prog ι ρ β) :
    (p >>= f).Sat φ R ↔ p.Sat φ fun a => (f a).Sat φ R := by
  induction p with
  | ret a => exact Iff.rfl
  | call i k ih => exact and_congr_right fun _ => forall_congr' ih

theorem Sat.mono {p : Prog ι ρ α} (hp : p.Sat φ Q) (hφ : ∀ i, φ i → φ' i)
    (hQ : ∀ a, Q a → Q' a) : p.Sat φ' Q' := by
  induction p with
  | ret a => exact hQ a hp
  | call i k ih => exact ⟨hφ i hp.1, fun r => ih r (hp.2 r)⟩

theorem Sat.and {p : Prog ι ρ α} (hp : p.Sat φ Q) (hp' : p.Sat φ' Q') :
    p.Sat (fun i => φ i ∧ φ' i) fun a => Q a ∧ Q' a := by
  induction p with
  | ret a => exact ⟨hp, hp'⟩
  | call i k ih => exact ⟨⟨hp.1, hp'.1⟩, fun r => ih r (hp.2 r) (hp'.2 r)⟩

theorem sat_true (p : Prog ι ρ α) : p.Sat (fun _ => True) fun _ => True := by
  induction p with
  | ret a => trivial
  | call i k ih => exact ⟨trivial, ih⟩

theorem Sat.run {p : Prog ι ρ α} (hp : p.Sat φ Q) (h : Handler ι ρ σ) (s : σ) :
    Q (p.run h s).1 := by
  induction p generalizing s with
  | ret a => exact hp
  | call i k ih => exact ih _ (hp.2 _) _

theorem Sat.log {p : Prog ι ρ α} (hp : p.Sat φ Q) (h : Handler ι ρ σ) (s : σ) :
    ∀ e ∈ p.log h s, φ e.req := by
  induction p generalizing s with
  | ret a => exact fun e he => absurd he List.not_mem_nil
  | call i k ih =>
    intro e he
    rcases List.mem_cons.mp he with rfl | he'
    · exact hp.1
    · exact ih _ (hp.2 _) _ e he'

/-- whatever the answers that satisfy `ψ`: the result satisfies `Q` -/
def Under (ψ : (i : ι) → ρ i → Prop) (Q : α → Prop) : Prog ι ρ α → Prop
  | .ret a => Q a
  | .call i k => ∀ r, ψ i r → (k r).Under ψ Q

section
variable {ψ : (i : ι) → ρ i → Prop}

theorem Under.mono {p : Prog ι ρ α} (hp : p.Under ψ Q) (hQ : ∀ a, Q a → Q' a) : p.Under ψ Q' := by
  induction p with
  | ret a => exact hQ a hp
  | call i k ih => exact fun r hr => ih r (hp r hr)

/-- what is known for all answers is known for these -/
theorem Under.and_sat {p : Prog ι ρ α} (hp : p.Under ψ Q) (hp' : p.Sat φ Q') :
    p.Under ψ fun a => Q a ∧ Q' a := by
  induction p with
  | ret a => exact ⟨hp, hp'⟩
  | call i k ih => exact fun r hr => ih r (hp r hr) (hp'.2 r)

theorem Under.bind {p : Prog ι ρ α} {f : α → Prog ι ρ β} (hp : p.Under ψ Q)
    (hf : ∀ a, Q a → (f a).Under ψ R) : (p >>= f).Under ψ R := by
  induction p with
  | ret a => exact hf a hp
  | call i k ih => exact fun r hr => ih r (hp r hr)

theorem Under.run {p : Prog ι ρ α} (hp : p.Under ψ Q) {h : Handler ι ρ σ}
    (hh : ∀ i w, ψ i (h i w).1) (s : σ) : Q (p.run h s).1 := by
  induction p generalizing s with
  | ret a => exact hp
  | call i k ih => exact ih _ (hp _ (hh i s)) _

end

/-- a program without requests leaves the machine alone -/
theorem Sat.run_silent {p : Prog ι ρ α} (hp : p.Sat (fun _ => False) Q) (h : Handler ι ρ σ)
    (s : σ) : (p.run h s).2 = s := by
  cases p with
  | ret a => rfl
  | call i k => exact hp.1.elim

/-- answers `r` to the first request, if it is `i`, then as `h` does -/
noncomputable def firstAnswer (i : ι) (r : ρ i) (h : Handler ι ρ σ) : Handler ι ρ (Bool × σ) :=
  fun j s =>
    open Classical in
    if hj : j = i ∧ s.1 = true then (hj.1 ▸ r, false, s.2) else ((h j s.2).1, false, (h j s.2).2)

theorem log_firstAnswer (i : ι) (r : ρ i) (h : Handler ι ρ σ) (p : Prog ι ρ α) (s : σ) :
    p.log (firstAnswer i r h) (false, s) = p.log h s := by
  induction p generalizing s with
  | ret a => rfl
  | call j k ih =>
    have hj : firstAnswer i r h j (false, s) = ((h j s).1, false, (h j s).2) :=
      dif_neg fun hc => Bool.false_ne_true hc.2
    rw [log_call, hj, log_call]
    exact congrArg (_ :: ·) (ih _ _)

/-- what the requests of every run satisfy, they satisfy for all answers -/
theorem sat_of_log {p : Prog ι ρ α} [∀ i, Nonempty (ρ i)]
    (hp : ∀ (σ : Type) (h : Handler ι ρ σ) (s : σ), ∀ e ∈ p.log h s, φ e.req) :
    p.Sat φ fun _ => True := by
  induction p with
  | ret a => trivial
  | call i k ih =>
    refine ⟨?_, fun r => ih r fun σ h s e he => ?_⟩
    · have h : Handler ι ρ Unit := fun j u => (Classical.choice inferInstance, u)
      exact hp Unit h () _ List.mem_cons_self
    · refine hp _ (firstAnswer i r h) (true, s) e ?_
      have hi : firstAnswer i r h i (true, s) = (r, false, s) := dif_pos ⟨rfl, rfl⟩
      rw [log_call, hi, log_firstAnswer]
      exact List.mem_cons_of_mem _ he

end

/-- the same program among more requests -/
def inl {κ : Type} {τ : κ → Type} : Prog ι ρ α → Prog (ι ⊕ κ) (Sum.elim ρ τ) α
  | .ret a => .ret a
  | .call i k => .call (.inl i) fun r => (k r).inl

end Prog
end Requests
