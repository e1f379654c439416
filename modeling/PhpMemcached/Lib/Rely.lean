import PhpMemcached.Lib.Cmd
import PhpMemcached.Lib.Steps
import Mathlib.Logic.Function.Basic

/-!
# Threads on a shared state

Threads run request programs; their requests are served one at a time, in any order.

* `System`, `World`, `Next`      threads, each idle or at a point of its program, and the moves of
                                 the whole: a thread starts an action, has a request served, or ends
                                 an action, or the shared state drifts;
* `Rules`                        what a thread may ask for (`guard`), what it learns from an answer
                                 (`served`), and what the others may do meanwhile (`env`), in terms of
                                 a view of the shared state;
* `Prog.Keeps R Q p g`           from the view `g`, `p` keeps the rules and ends with `Q`;
* `Discipline`, `WorldOk`        the obligations of a system, and the invariant they give
                                 (`Discipline.runs`).
-/

namespace Requests

/-! ## rules -/

/-- what a thread may do and what it may rely on, in terms of views `G` -/
structure Rules (ι : Type) (ρ : ι → Type) (G : Type) where
  env : G → G → Prop
  guard : ι → G → Prop
  served : (i : ι) → ρ i → G → G → Prop
  refl : ∀ g, env g g
  trans : ∀ g₁ g₂ g₃, env g₁ g₂ → env g₂ g₃ → env g₁ g₃

section
variable {ι : Type} {ρ : ι → Type} {G : Type} (R : Rules ι ρ G)

namespace Prog
variable {α β : Type}

/-- from the view `g` on, which the others may change: the program keeps the rules and ends
with `Q` -/
def Keeps (Q : α → G → Prop) : Prog ι ρ α → G → Prop
  | .ret a, g => ∀ g', R.env g g' → Q a g'
  | .call i k, g => ∀ g₁, R.env g g₁ →
      R.guard i g₁ ∧ ∀ r g₂, R.served i r g₁ g₂ → (k r).Keeps Q g₂

variable {R} {Q Q' : α → G → Prop} {P : β → G → Prop} {g g' : G}

theorem Keeps.env {p : Prog ι ρ α} (hp : p.Keeps R Q g) (hg : R.env g g') : p.Keeps R Q g' := by
  cases p with
  | ret a => exact fun g'' h => hp g'' (R.trans _ _ _ hg h)
  | call i k => exact fun g'' h => hp g'' (R.trans _ _ _ hg h)

theorem Keeps.mono {p : Prog ι ρ α} (hp : p.Keeps R Q g) (hQ : ∀ a g', Q a g' → Q' a g') :
    p.Keeps R Q' g := by
  induction p generalizing g with
  | ret a => exact fun g' h => hQ a g' (hp g' h)
  | call i k ih =>
    intro g₁ h
    obtain ⟨hguard, hk⟩ := hp g₁ h
    exact ⟨hguard, fun r g₂ hs => ih r (hk r g₂ hs)⟩

theorem Keeps.bind {p : Prog ι ρ α} {f : α → Prog ι ρ β} (hp : p.Keeps R Q g)
    (hf : ∀ a g', Q a g' → (f a).Keeps R P g') : (p >>= f).Keeps R P g := by
  induction p generalizing g with
  | ret a => exact hf a g (hp g (R.refl g))
  | call i k ih =>
    intro g₁ h
    obtain ⟨hguard, hk⟩ := hp g₁ h
    exact ⟨hguard, fun r g₂ hs => ih r (hk r g₂ hs)⟩

/-- what holds of the view, and is kept by the others and by each request of the program -/
theorem Sat.keeps {φ : ι → Prop} {Q : α → Prop} {J : G → Prop} {p : Prog ι ρ α} (hp : p.Sat φ Q)
    (hstable : ∀ g g', J g → R.env g g' → J g')
    (hreq : ∀ i g, φ i → J g → R.guard i g ∧ ∀ r g', R.served i r g g' → J g') (hg : J g) :
    p.Keeps R (fun a g' => Q a ∧ J g') g := by
  induction p generalizing g with
  | ret a => exact fun g' h => ⟨hp, hstable g g' hg h⟩
  | call i k ih =>
    intro g₁ h₁
    obtain ⟨hguard, hserved⟩ := hreq i g₁ hp.1 (hstable g g₁ hg h₁)
    exact ⟨hguard, fun r g₂ hs => ih r (hp.2 r) (hserved r g₂ hs)⟩

/-- what is known of every result, whatever the answers, is known of these -/
theorem Keeps.and_under {Q' : α → Prop} {p : Prog ι ρ α} (hp : p.Keeps R Q g)
    (hp' : p.Under (fun _ _ => True) Q') : p.Keeps R (fun a g' => Q a g' ∧ Q' a) g := by
  induction p generalizing g with
  | ret a => exact fun g' h => ⟨hp g' h, hp'⟩
  | call i k ih =>
    intro g₁ h
    obtain ⟨hguard, hk⟩ := hp g₁ h
    exact ⟨hguard, fun r g₂ hs => ih r (hk r g₂ hs) (hp' r trivial)⟩

end Prog

namespace Cmd
variable {ε S α β : Type}

/-- `Prog.Keeps` for commands; a stop is not judged -/
def Keeps (Q : α → S → G → Prop) (m : Cmd ι ρ ε S α) (s : S) (g : G) : Prop :=
  (m s).Keeps R (fun o g' => match o with
    | .done a s' => Q a s' g'
    | .stop _ _ => True) g

variable {R} {Q Q' : α → S → G → Prop} {P : β → S → G → Prop} {s : S} {g g' : G}

theorem keeps_pure (a : α) :
    Keeps R Q (pure a : Cmd ι ρ ε S α) s g ↔ ∀ g', R.env g g' → Q a s g' := Iff.rfl
@[simp] theorem keeps_get_bind (f : S → Cmd ι ρ ε S β) :
    Keeps R P (get >>= f) s g ↔ Keeps R P (f s) s g := Iff.rfl
@[simp] theorem keeps_modify_bind (h : S → S) (f : Unit → Cmd ι ρ ε S β) :
    Keeps R P (modify h >>= f) s g ↔ Keeps R P (f ()) (h s) g := Iff.rfl
theorem keeps_req_bind (i : ι) (f : ρ i → Cmd ι ρ ε S β) :
    Keeps R P (req i >>= f) s g ↔ ∀ g₁, R.env g g₁ →
      R.guard i g₁ ∧ ∀ r g₂, R.served i r g₁ g₂ → Keeps R P (f r) s g₂ := Iff.rfl

theorem keeps_stop (e : ε) : Keeps R Q (stop e : Cmd ι ρ ε S α) s g := fun _ _ => trivial

theorem Keeps.env {m : Cmd ι ρ ε S α} (hm : Keeps R Q m s g) (hg : R.env g g') :
    Keeps R Q m s g' := Prog.Keeps.env hm hg

theorem Keeps.mono {m : Cmd ι ρ ε S α} (hm : Keeps R Q m s g)
    (hQ : ∀ a s' g', Q a s' g' → Q' a s' g') : Keeps R Q' m s g :=
  Prog.Keeps.mono hm fun o g' h => match o, h with
    | .done a s', h => hQ a s' g' h
    | .stop _ _, _ => trivial

theorem Keeps.bind {m : Cmd ι ρ ε S α} {f : α → Cmd ι ρ ε S β} (hm : Keeps R Q m s g)
    (hf : ∀ a s' g', Q a s' g' → Keeps R P (f a) s' g') : Keeps R P (m >>= f) s g :=
  Prog.Keeps.bind hm fun o g' h => match o, h with
    | .done a s', h => hf a s' g' h
    | .stop _ _, _ => fun _ _ => trivial

/-- rounds that each keep what the others leave -/
theorem Keeps.retry {more : S → α → Bool} {again : α → Cmd ι ρ ε S α}
    (hagain : ∀ a s g, Q a s g → Keeps R Q (again a) s g)
    (hstable : ∀ a s g g', Q a s g → R.env g g' → Q a s g') (n : Nat) {a : α} (ha : Q a s g) :
    Keeps R Q (Cmd.retry more again n a) s g := by
  induction n generalizing a s g with
  | zero => exact fun g' h => hstable a s g g' ha h
  | succ n ih =>
    show Prog.Keeps R _ (Cmd.retry more again (n + 1) a s) g
    cases hm : more s a with
    | false =>
      rw [retry_of_not_more hm]
      exact fun g' h => hstable a s g g' ha h
    | true =>
      rw [retry_of_more hm]
      exact Keeps.bind (hagain a s g ha) fun a' s' g' h' => ih h'

/-- a command that does not stop -/
theorem Keeps.done {m : Cmd ι ρ ε S α} (hm : Keeps R Q m s g)
    (hstop : Stops (fun _ _ => True) (fun _ _ => False) m s) :
    (m s).Keeps R (fun o g' => ∃ a s', o = .done a s' ∧ Q a s' g') g := by
  refine (Prog.Keeps.and_under hm hstop).mono fun o g' ho => ?_
  cases o with
  | done a s' => exact ⟨a, s', rfl, ho.1⟩
  | stop e s' => exact ho.2.elim

theorem Sat.keeps {φ : ι → Prop} {Q : α → S → Prop} {J : G → Prop} {m : Cmd ι ρ ε S α}
    (hm : Sat φ Q m s) (hstable : ∀ g g', J g → R.env g g' → J g')
    (hreq : ∀ i g, φ i → J g → R.guard i g ∧ ∀ r g', R.served i r g g' → J g') (hg : J g) :
    Keeps R (fun a s' g' => Q a s' ∧ J g') m s g :=
  (Prog.Sat.keeps hm hstable hreq hg).mono fun o _ h => match o, h with
    | .done _ _, h => h
    | .stop _ _, _ => trivial

end Cmd
end

/-! ## systems of threads -/

/-- a thread is idle in a local state, or in its action `a` with `p` still to run -/
inductive Phase (ι : Type) (ρ : ι → Type) (A S : Type) : Type where
  | idle (s : S)
  | busy (a : A) (p : Prog ι ρ S)

structure World (T ι : Type) (ρ : ι → Type) (A S σ : Type) where
  phase : T → Phase ι ρ A S
  shared : σ

inductive Move (T A D : Type) where
  | start (t : T) (a : A)
  | serve (t : T)
  | finish (t : T)
  | drift (d : D)

/-- the code of the threads, and what the shared state does with requests and without -/
structure System (T ι : Type) (ρ : ι → Type) (A S D σ : Type) where
  code : A → S → Prog ι ρ S
  serve : T → (i : ι) → ρ i → σ → σ → Prop
  drift : D → σ → σ → Prop

section
variable {T ι : Type} {ρ : ι → Type} {A S D σ G : Type} [DecidableEq T]

def World.set (w : World T ι ρ A S σ) (t : T) (phase : Phase ι ρ A S) : World T ι ρ A S σ :=
  { w with phase := Function.update w.phase t phase }

inductive System.Next (X : System T ι ρ A S D σ) :
    World T ι ρ A S σ → Move T A D → World T ι ρ A S σ → Prop
  | start {w t a s} : w.phase t = .idle s → X.Next w (.start t a) (w.set t (.busy a (X.code a s)))
  | serve {w t a i k r shared} : w.phase t = .busy a (.call i k) → X.serve t i r w.shared shared →
      X.Next w (.serve t) ({ w with shared := shared }.set t (.busy a (k r)))
  | finish {w t a s} : w.phase t = .busy a (.ret s) → X.Next w (.finish t) (w.set t (.idle s))
  | drift {w d shared} : X.drift d w.shared shared → X.Next w (.drift d) { w with shared := shared }

/-- what is to be shown of a system: `may` says when an action is started, `careful` which requests
are made, `calm` how the shared state drifts -/
structure Discipline (X : System T ι ρ A S D σ) (R : Rules ι ρ G) (view : T → σ → G)
    (inv : σ → Prop) (rest : T → S → G → Prop) (may : T → S → A → Prop)
    (careful : T → ι → σ → Prop) (calm : D → Prop) : Prop where
  stable : ∀ t s g g', rest t s g → R.env g g' → rest t s g'
  code : ∀ t a s g, rest t s g → may t s a → (X.code a s).Keeps R (rest t) g
  served : ∀ t i r w w', inv w → R.guard i (view t w) → careful t i w → X.serve t i r w w' →
    R.served i r (view t w) (view t w')
  others : ∀ t i r w w', inv w → R.guard i (view t w) → careful t i w → X.serve t i r w w' →
    ∀ u, u ≠ t → R.env (view u w) (view u w')
  kept : ∀ t i r w w', inv w → R.guard i (view t w) → careful t i w → X.serve t i r w w' → inv w'
  drifts : ∀ d w w', inv w → calm d → X.drift d w w' →
    inv w' ∧ ∀ u, R.env (view u w) (view u w')

/-- each idle thread is as `rest` says, each busy one keeps the rules and comes to `rest` -/
structure WorldOk (R : Rules ι ρ G) (view : T → σ → G) (inv : σ → Prop)
    (rest : T → S → G → Prop) (w : World T ι ρ A S σ) : Prop where
  shared : inv w.shared
  idle : ∀ t s, w.phase t = .idle s → rest t s (view t w.shared)
  busy : ∀ t a p, w.phase t = .busy a p → p.Keeps R (rest t) (view t w.shared)

/-- the moves the discipline is about -/
structure Permitted (may : T → S → A → Prop) (careful : T → ι → σ → Prop) (calm : D → Prop)
    (w : World T ι ρ A S σ) (move : Move T A D) : Prop where
  may : ∀ t a s, move = .start t a → w.phase t = .idle s → may t s a
  careful : ∀ t a i k, move = .serve t → w.phase t = .busy a (.call i k) → careful t i w.shared
  calm : ∀ d, move = .drift d → calm d

variable {X : System T ι ρ A S D σ} {R : Rules ι ρ G} {view : T → σ → G} {inv : σ → Prop}
  {rest : T → S → G → Prop} {may : T → S → A → Prop} {careful : T → ι → σ → Prop}
  {calm : D → Prop} {w w' : World T ι ρ A S σ} {t u : T} {phase : Phase ι ρ A S}

theorem World.set_phase_self : (w.set t phase).phase t = phase := Function.update_self _ _ _
theorem World.set_phase_of_ne (h : u ≠ t) : (w.set t phase).phase u = w.phase u :=
  Function.update_of_ne h _ _
@[simp] theorem World.set_shared : (w.set t phase).shared = w.shared := rfl

/-- one thread is given a new phase, the shared state is left -/
theorem WorldOk.set (hok : WorldOk R view inv rest w)
    (hidle : ∀ s, phase = .idle s → rest t s (view t w.shared))
    (hbusy : ∀ a p, phase = .busy a p → p.Keeps R (rest t) (view t w.shared)) :
    WorldOk R view inv rest (w.set t phase) where
  shared := hok.shared
  idle u s hu := by
    by_cases he : u = t
    · subst he
      exact hidle s (World.set_phase_self.symm.trans hu)
    · exact hok.idle u s ((World.set_phase_of_ne he).symm.trans hu)
  busy u a p hu := by
    by_cases he : u = t
    · subst he
      exact hbusy a p (World.set_phase_self.symm.trans hu)
    · exact hok.busy u a p ((World.set_phase_of_ne he).symm.trans hu)

omit [DecidableEq T] in
/-- a thread that has a request may make it -/
theorem WorldOk.guard (hok : WorldOk R view inv rest w) {a : A} {i : ι} {k : ρ i → Prog ι ρ S}
    (ht : w.phase t = .busy a (.call i k)) : R.guard i (view t w.shared) :=
  (hok.busy t a _ ht _ (R.refl _)).1

/-- a request is served -/
theorem Discipline.serve (hX : Discipline X R view inv rest may careful calm)
    (hok : WorldOk R view inv rest w) {a : A} {i : ι} {k : ρ i → Prog ι ρ S} {r : ρ i} {shared : σ}
    (ht : w.phase t = .busy a (.call i k)) (hcareful : careful t i w.shared)
    (hs : X.serve t i r w.shared shared) :
    WorldOk R view inv rest ({ w with shared := shared }.set t (.busy a (k r))) := by
  have hguard := hok.guard ht
  have hserved := hX.served t i r _ _ hok.shared hguard hcareful hs
  have hothers := hX.others t i r _ _ hok.shared hguard hcareful hs
  exact {
    shared := hX.kept t i r _ _ hok.shared hguard hcareful hs
    idle := fun u s hu => by
      by_cases he : u = t
      · subst he
        rw [World.set_phase_self] at hu
        cases hu
      · rw [World.set_phase_of_ne he] at hu
        exact hX.stable u s _ _ (hok.idle u s hu) (hothers u he)
    busy := fun u b p hu => by
      by_cases he : u = t
      · subst he
        rw [World.set_phase_self] at hu
        cases hu
        exact (hok.busy u a _ ht _ (R.refl _)).2 r _ hserved
      · rw [World.set_phase_of_ne he] at hu
        exact (hok.busy u b p hu).env (hothers u he) }

/-- one move -/
theorem Discipline.next (hX : Discipline X R view inv rest may careful calm)
    (hok : WorldOk R view inv rest w) {move : Move T A D}
    (hmove : Permitted may careful calm w move) (hnext : X.Next w move w') :
    WorldOk R view inv rest w' := by
  cases hnext with
  | @start t a s ht =>
    refine hok.set nofun fun b p hp => ?_
    cases hp
    exact hX.code t a s _ (hok.idle t s ht) (hmove.may t a s rfl ht)
  | @serve t a i k r shared ht hs => exact hX.serve hok ht (hmove.careful t a i k rfl ht) hs
  | @finish t a s ht =>
    refine hok.set (fun s' hs' => ?_) nofun
    cases hs'
    exact hok.busy t a _ ht _ (R.refl _)
  | @drift d shared hd =>
    obtain ⟨hinv, henv⟩ := hX.drifts d _ _ hok.shared (hmove.calm d rfl) hd
    exact {
      shared := hinv
      idle := fun u s hu => hX.stable u s _ _ (hok.idle u s hu) (henv u)
      busy := fun u a p hu => (hok.busy u a p hu).env (henv u) }

/-- **The invariant holds after every run of permitted moves.** -/
theorem Discipline.runs (hX : Discipline X R view inv rest may careful calm)
    {ok : World T ι ρ A S σ → Move T A D → Prop}
    (hpermitted : ∀ w move, ok w move → Permitted may careful calm w move)
    (hrun : Runs X.Next ok w w') (hok : WorldOk R view inv rest w) : WorldOk R view inv rest w' :=
  hrun.invariant hok fun v move _ hv hmove hnext => hX.next hv (hpermitted v move hmove) hnext

/-! ## an action without interruption -/

theorem World.set_set (w : World T ι ρ A S σ) (t : T) (phase phase' : Phase ι ρ A S)
    (shared : σ) : ({ w.set t phase with shared := shared }.set t phase' : World T ι ρ A S σ) =
      ({ w with shared := shared }.set t phase' : World T ι ρ A S σ) := by
  unfold World.set
  rw [Function.update_idem]

/-- the thread `t`, if it is idle, does the action `a` at once, against the machine `h` -/
def World.act (X : System T ι ρ A S D σ) (h : Handler ι ρ σ) (t : T) (a : A)
    (w : World T ι ρ A S σ) : World T ι ρ A S σ :=
  match w.phase t with
  | .idle s => { w with shared := ((X.code a s).run h w.shared).2 }.set t
      (.idle ((X.code a s).run h w.shared).1)
  | .busy _ _ => w

section
variable {h : Handler ι ρ σ} {a : A} {ok : World T ι ρ A S σ → Move T A D → Prop} {φ : ι → Prop}

/-- what is left of an action, by induction on its requests -/
theorem Runs.actFrom (hserve : ∀ i s, X.serve t i (h i s).1 s (h i s).2)
    (hok : ∀ w i k, w.phase t = .busy a (.call i k) → φ i → ok w (.serve t))
    (hfinish : ∀ w, ok w (.finish t)) {w₀ w : World T ι ρ A S σ} (p : Prog ι ρ S)
    (hφ : ∀ e ∈ p.log h w.shared, φ e.req) (hrun : Runs X.Next ok w₀ w)
    (ht : w.phase t = .busy a p) :
    Runs X.Next ok w₀ ({ w with shared := (p.run h w.shared).2 }.set t
      (.idle (p.run h w.shared).1)) := by
  induction p generalizing w with
  | ret s => exact hrun.snoc (hfinish w) (.finish ht)
  | call i k ih =>
    have hfirst := hφ ⟨i, (h i w.shared).1⟩ List.mem_cons_self
    have hstep := hrun.snoc (hok w i k ht hfirst) (System.Next.serve ht (hserve i w.shared))
    have hlast := ih _ (fun e he => hφ e (List.mem_cons_of_mem _ he)) hstep World.set_phase_self
    exact World.set_set ({ w with shared := (h i w.shared).2 } : World T ι ρ A S σ) t _ _ _ ▸ hlast

/-- an action without interruption is a run -/
theorem Runs.act (hserve : ∀ i s, X.serve t i (h i s).1 s (h i s).2)
    (hstart : ok w (.start t a))
    (hok : ∀ w i k, w.phase t = .busy a (.call i k) → φ i → ok w (.serve t))
    (hfinish : ∀ w, ok w (.finish t))
    (hφ : ∀ s, w.phase t = .idle s → ∀ e ∈ (X.code a s).log h w.shared, φ e.req)
    {w₀ : World T ι ρ A S σ} (hrun : Runs X.Next ok w₀ w) : Runs X.Next ok w₀ (w.act X h t a) := by
  unfold World.act
  cases ht : w.phase t with
  | busy b p => exact hrun
  | idle s =>
    have hbegun := hrun.snoc hstart (.start ht)
    have hlast := Runs.actFrom (w := w.set t (.busy a (X.code a s))) hserve hok hfinish _ (hφ s ht)
      hbegun World.set_phase_self
    show Runs X.Next ok w₀ ({ w with shared := ((X.code a s).run h w.shared).2 }.set t
      (.idle ((X.code a s).run h w.shared).1))
    exact World.set_set w t _ _ _ ▸ hlast

end
end
end Requests
